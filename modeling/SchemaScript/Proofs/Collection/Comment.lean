import SchemaScript.Proofs.Collection.ShellText

/-!
# SchemaScript.Proofs.Collection.Comment

The comments of shell scripts, and where a shell sees their ends.

`shellPieces` cuts a script into its comments and the characters outside of them, for any choice of
the characters that end a comment. A script ends its comments with line feeds; a shell ends them at
any line terminator, of which there are four (`isTerminator`).

Names and descriptions lose their line feeds and carriage returns in comments, and keep the line
separator and the paragraph separator. So a shell sees the same comments as those that the script
writes, and nothing of them as commands, if and only if these two separators do not occur in what
the comments tell (`comments_read_iff`).
-/

namespace SchemaScript

/-! ## Readers of comments -/

inductive ShellPiece where
  /-- The text behind the two slashes. -/
  | comment (text : String)
  | code (c : Char)
deriving DecidableEq, Repr

def ShellPiece.comment? : ShellPiece → Option String
  | .comment text => some text
  | .code _ => none

def ShellPiece.code? : ShellPiece → Option Char
  | .comment _ => none
  | .code c => some c

/-- The comments of a script and its other characters, in order. What has been read of a comment is
given in reverse. -/
def shellPieces (ends : Char → Bool) : ShellState → List Char → List Char → List ShellPiece
  | .outside, _, [] => []
  | .outside, _, '/' :: '/' :: rest => shellPieces ends .comment [] rest
  | .outside, _, c :: rest =>
    .code c :: shellPieces ends (if c = '"' then .string else .outside) [] rest
  | .comment, read, [] => [.comment (String.ofList read.reverse)]
  | .comment, read, c :: rest =>
    if ends c then
      .comment (String.ofList read.reverse) :: .code c :: shellPieces ends .outside [] rest
    else shellPieces ends .comment (c :: read) rest
  | .string, _, [] => []
  | .string, _, c :: rest =>
    .code c :: shellPieces ends
      (if c = '"' then .outside else if c = '\\' then .escape else .string) [] rest
  | .escape, _, [] => []
  | .escape, _, c :: rest => .code c :: shellPieces ends .string [] rest

def isFeed (c : Char) : Bool :=
  c == '\n'

/-- The pieces of a script whose comments end with line feeds. -/
def writtenPieces (script : String) : List ShellPiece :=
  shellPieces isFeed .outside [] script.toList

/-- The line breaks that are taken out of names and descriptions. -/
def isBreak (c : Char) : Bool :=
  isFeed c || c == '\r'

/-- The line separator and the paragraph separator. -/
def isSeparator (c : Char) : Bool :=
  c == '\u2028' || c == '\u2029'

/-- The characters that end a line, and with it a comment, in a shell. -/
def isTerminator (c : Char) : Bool :=
  isBreak c || isSeparator c

/-- The pieces of a script as a shell reads it. -/
def readPieces (script : String) : List ShellPiece :=
  shellPieces isTerminator .outside [] script.toList

def commentsOf (pieces : List ShellPiece) : List String :=
  pieces.filterMap (·.comment?)

def codeOf (pieces : List ShellPiece) : List Char :=
  pieces.filterMap (·.code?)

@[simp]
theorem commentsOf_nil : commentsOf [] = [] :=
  rfl

@[simp]
theorem commentsOf_comment (text : String) (pieces : List ShellPiece) :
    commentsOf (.comment text :: pieces) = text :: commentsOf pieces :=
  rfl

@[simp]
theorem commentsOf_code (c : Char) (pieces : List ShellPiece) :
    commentsOf (.code c :: pieces) = commentsOf pieces :=
  rfl

/-! ## Two readers -/

/-- The text has no character of the given kind. -/
def Avoids (kind : Char → Bool) (text : String) : Prop :=
  ∀ c ∈ text.toList, kind c = false

instance (kind : Char → Bool) (text : String) : Decidable (Avoids kind text) :=
  decidable_of_iff (text.toList.all (fun c => !kind c) = true) (by simp [Avoids])

theorem avoids_append {kind : Char → Bool} {a b : String} :
    Avoids kind (a ++ b) ↔ Avoids kind a ∧ Avoids kind b := by
  simp only [Avoids, String.toList_append, List.mem_append, or_imp, forall_and]

theorem Avoids.isBreak {text : String} (h : Avoids isTerminator text) : Avoids isBreak text :=
  fun c hc => (Bool.or_eq_false_iff.mp (h c hc)).1

/-- Comments end at the first character that ends comments. -/
theorem avoids_of_mem_comments {ends : Char → Bool} {state : ShellState} {read cs : List Char}
    (hread : ∀ c ∈ read, ends c = false) :
    ∀ text ∈ commentsOf (shellPieces ends state read cs), Avoids ends text := by
  fun_induction shellPieces ends state read cs with
  | case1 => simp
  | case2 read rest ih => exact ih (by simp)
  | case3 read c rest _ ih => exact ih (by simp)
  | case4 read => simpa [Avoids] using hread
  | case5 read c rest _ ih =>
    have htext : Avoids ends (String.ofList read.reverse) := by simpa [Avoids] using hread
    simpa using ⟨htext, ih (by simp)⟩
  | case6 read c rest hc ih =>
    exact ih (by simpa [hc] using hread)
  | case7 => simp
  | case8 read c rest ih => exact ih (by simp)
  | case9 => simp
  | case10 read c rest ih => exact ih (by simp)

/-- What has been read of a comment is part of it. -/
theorem exists_comment_of_mem_read (ends : Char → Bool) {read : List Char} {c : Char}
    (hc : c ∈ read) (cs : List Char) :
    ∃ text ∈ commentsOf (shellPieces ends .comment read cs), c ∈ text.toList := by
  have hread : c ∈ (String.ofList read.reverse).toList := by simpa using hc
  induction cs generalizing read with
  | nil => exact ⟨_, List.mem_singleton_self _, hread⟩
  | cons d cs ih =>
    rw [shellPieces]
    split
    · exact ⟨_, List.mem_cons_self, hread⟩
    · exact ih (by simp [hc]) (by simp [hc])

/-- A reader that ends comments at more characters reads the same, as long as none of them is in a
comment. -/
theorem shellPieces_congr {ends ends' : Char → Bool} (hends : ∀ c, ends c = true → ends' c = true)
    {state : ShellState} {read cs : List Char}
    (h : ∀ text ∈ commentsOf (shellPieces ends state read cs), Avoids ends' text) :
    shellPieces ends' state read cs = shellPieces ends state read cs := by
  fun_induction shellPieces ends state read cs with
  | case1 => rfl
  | case2 read rest ih => rw [shellPieces, ih h]
  | case3 read c rest hslash ih => rw [shellPieces, ih (by simpa using h)]; exact hslash
  | case4 read => rfl
  | case5 read c rest hc ih =>
    rw [shellPieces, if_pos (hends c hc), ih fun text htext => h text (by simp [htext])]
  | case6 read c rest _ ih =>
    -- The character is in the comment, so it does not end comments for the other reader either.
    have hread : c ∈ c :: read := by simp
    obtain ⟨text, htext, hmem⟩ := exists_comment_of_mem_read ends hread rest
    rw [shellPieces, if_neg (by simp [h text htext c hmem]), ih h]
  | case7 => rfl
  | case8 read c rest ih => rw [shellPieces, ih (by simpa using h)]
  | case9 => rfl
  | case10 read c rest ih => rw [shellPieces, ih (by simpa using h)]

theorem readPieces_eq_iff (script : String) :
    readPieces script = writtenPieces script ↔
      ∀ text ∈ commentsOf (writtenPieces script), Avoids isTerminator text := by
  have hends (c : Char) (hc : isFeed c = true) : isTerminator c = true := by
    simp [isTerminator, isBreak, hc]
  refine ⟨fun h => ?_, fun h => shellPieces_congr hends h⟩
  rw [← h]
  exact avoids_of_mem_comments (by simp)

/-! ## Pieces of a script -/

/-- The comments of a text that starts outside of comments and strings. -/
def feedComments (cs : List Char) : List String :=
  commentsOf (shellPieces isFeed .outside [] cs)

/-- The text leaves comments and strings as they are, and holds the given comments. -/
def HoldsComments (cs : List Char) (texts : List String) : Prop :=
  ∀ rest, feedComments (cs ++ rest) = texts ++ feedComments rest

namespace HoldsComments

theorem nil : HoldsComments [] [] := by
  intro rest
  rfl

theorem append {cs ds : List Char} {texts texts' : List String} (hcs : HoldsComments cs texts)
    (hds : HoldsComments ds texts') : HoldsComments (cs ++ ds) (texts ++ texts') := by
  intro rest
  rw [List.append_assoc, hcs, hds, List.append_assoc]

theorem additive : Text.Additive HoldsComments :=
  ⟨nil, append⟩

theorem comment {text : String} (htext : Avoids isBreak text) :
    HoldsComments ('/' :: '/' :: (text.toList ++ ['\n'])) [text] := by
  have hcomment (cs read rest : List Char) (hcs : ∀ c ∈ cs, isBreak c = false) :
      commentsOf (shellPieces isFeed .comment read (cs ++ '\n' :: rest)) =
        String.ofList (read.reverse ++ cs) :: feedComments rest := by
    induction cs generalizing read with
    | nil => simp [shellPieces, isFeed, feedComments]
    | cons c cs ih =>
      have hc : isFeed c = false := (Bool.or_eq_false_iff.mp (hcs c (by simp))).1
      rw [List.cons_append, shellPieces, if_neg (by simp [hc]),
        ih (c :: read) fun d hd => hcs d (by simp [hd])]
      simp
  intro rest
  have hopen : feedComments ('/' :: '/' :: (text.toList ++ '\n' :: rest)) =
      commentsOf (shellPieces isFeed .comment [] (text.toList ++ '\n' :: rest)) := rfl
  have hread := hcomment text.toList [] rest htext
  simpa [hopen] using hread

/-- A character that opens neither a comment nor a string. -/
def isLoose (c : Char) : Bool :=
  c ≠ '/' && c ≠ '"'

/-- Texts without quotes and slashes have no comments. -/
theorem of_isLoose {cs : List Char} (h : cs.all isLoose = true) : HoldsComments cs [] := by
  intro rest
  induction cs with
  | nil => rfl
  | cons c cs ih =>
    simp only [List.all_cons, isLoose, Bool.and_eq_true, decide_eq_true_eq] at h
    have hstep : feedComments (c :: (cs ++ rest)) = feedComments (cs ++ rest) := by
      rw [feedComments, shellPieces, if_neg h.1.2, commentsOf_code]
      · rfl
      · rintro _ hslash -
        exact h.1.1 hslash
    rw [List.cons_append, hstep]
    exact ih h.2

/-- Inside of a string, escaped text is passed. -/
theorem commentsOf_escapeChars (cs : List Char) :
    ∀ rest, commentsOf (shellPieces isFeed .string [] (Json.escapeChars cs ++ rest)) =
      commentsOf (shellPieces isFeed .string [] rest) := by
  refine Json.of_escapeChars (p := fun cs => ∀ rest,
    commentsOf (shellPieces isFeed .string [] (cs ++ rest)) =
      commentsOf (shellPieces isFeed .string [] rest)) ?_ ?_ ?_ ?_ cs
  · intro rest
    rfl
  · intro cs ds hcs hds rest
    rw [List.append_assoc, hcs, hds]
  · intro c hquote hslash _ rest
    rw [List.singleton_append, shellPieces, if_neg hquote, if_neg hslash, commentsOf_code]
  · intro c _ rest
    rfl

/-- Strings have no comments, whatever their text. -/
theorem string (s : String) : HoldsComments ('"' :: (Json.escapeChars s.toList ++ ['"'])) [] := by
  intro rest
  have hopen : feedComments ('"' :: (Json.escapeChars s.toList ++ '"' :: rest)) =
      commentsOf (shellPieces isFeed .string [] (Json.escapeChars s.toList ++ '"' :: rest)) := rfl
  have hclose : commentsOf (shellPieces isFeed .string [] ('"' :: rest)) = feedComments rest := rfl
  simp [hopen, commentsOf_escapeChars, hclose]

theorem stringText (s : String) : HoldsComments (Json.stringText s).toList [] := by
  rw [Json.toList_stringText]
  exact string s

theorem tokenwise : Json.Tokenwise (HoldsComments · []) where
  append := append
  spaces {ws} hws := by
    refine of_isLoose (List.all_eq_true.mpr fun c hc => ?_)
    have hspace := hws c hc
    simp only [Json.isSpace, Bool.or_eq_true, beq_iff_eq] at hspace
    rcases hspace with ((rfl | rfl) | rfl) | rfl <;> decide
  token s hs := by
    have hloose : ∀ s ∈ Json.plainTokens, s.toList.all isLoose = true := by decide
    exact of_isLoose (hloose s hs)
  string := string
  array hcs := by
    have hopen : HoldsComments ['['] [] := of_isLoose rfl
    have hclose : HoldsComments [']'] [] := of_isLoose rfl
    exact hopen.append (hcs.append hclose)
  object hcs := by
    have hopen : HoldsComments ['\x7b'] [] := of_isLoose rfl
    have hclose : HoldsComments ['\x7d'] [] := of_isLoose rfl
    exact hopen.append (hcs.append hclose)

end HoldsComments

/-! ## Comments of a collection -/

namespace Collection

theorem avoids_isBreak_commentText (text : String) : Avoids isBreak (commentText text) := by
  intro c hc
  have hfeed : c ≠ '\n' := by
    rintro rfl
    exact (not_mem_commentText text).1 hc
  have hreturn : c ≠ '\r' := by
    rintro rfl
    exact (not_mem_commentText text).2 hc
  simp [isBreak, isFeed, hfeed, hreturn]

theorem avoids_isTerminator_commentText (text : String) :
    Avoids isTerminator (commentText text) ↔ Avoids isSeparator text := by
  have hchar (c : Char) :
      isTerminator (if c = '\r' ∨ c = '\n' then ' ' else c) = isSeparator c := by
    split
    · rename_i hbreak
      rcases hbreak with rfl | rfl <;> rfl
    · rename_i hbreak
      rw [not_or] at hbreak
      simp [isTerminator, isBreak, isFeed, hbreak]
  simp [Avoids, commentText, hchar]

/-- What stands above the index of a reference. -/
def noteText (c : Collection) (r : CollectionReference) : String :=
  " " ++ commentText c.name ++ "." ++ commentText r.field ++ " references " ++
    commentText r.collection ++ "." ++ commentText r.foreignField ++ " (" ++ r.kind.name ++ ")"

/-- The comments in the blocks of a collection. -/
def comments (c : Collection) : List String :=
  [" Collection: " ++ commentText c.name, " " ++ commentText c.schema.description,
    " Sample document for " ++ commentText c.name] ++ c.references.map c.noteText

/-- The words of comments, between the names and descriptions that they tell. -/
def commentWords : List String :=
  [" Collection: ", " ", " Sample document for ", ".", " references ", " (", ")"] ++
    Cardinality.all.map (·.name)

/-- What the comments of a collection have of a kind of characters comes from what they tell. -/
theorem avoids_comments {kind : Char → Bool} {told : String → Prop}
    (hwords : ∀ word ∈ commentWords, Avoids kind word)
    (htold : ∀ text, Avoids kind (commentText text) ↔ told text) (c : Collection) :
    (∀ text ∈ c.comments, Avoids kind text) ↔
      told c.name ∧ told c.schema.description ∧
        ∀ r ∈ c.references, told r.field ∧ told r.collection ∧ told r.foreignField := by
  simp only [commentWords, List.forall_mem_append, List.forall_mem_cons, List.forall_mem_map]
    at hwords
  obtain ⟨⟨htitle, hblank, hsample, hpoint, hreferences, hopen, hclose, -⟩, hkinds⟩ := hwords
  have hkind (k : Cardinality) : Avoids kind k.name := hkinds k (by cases k <;> decide)
  have hnote (r : CollectionReference) : Avoids kind (c.noteText r) ↔
      told c.name ∧ told r.field ∧ told r.collection ∧ told r.foreignField := by
    simp only [noteText, avoids_append, htold, hblank, hpoint, hreferences, hopen, hclose, hkind,
      true_and, and_true, and_assoc]
  simp only [comments, List.forall_mem_append, List.forall_mem_cons, List.forall_mem_map,
    avoids_append, htold, htitle, hsample, hblank, hnote]
  constructor
  · rintro ⟨⟨⟨-, hname⟩, ⟨-, hdescription⟩, -⟩, hnotes⟩
    exact ⟨hname, hdescription, fun r hr => (hnotes r hr).2⟩
  · rintro ⟨hname, hdescription, hnotes⟩
    exact ⟨⟨⟨trivial, hname⟩, ⟨trivial, hdescription⟩, ⟨trivial, hname⟩, by simp⟩,
      fun r hr => ⟨hname, hnotes r hr⟩⟩

theorem avoids_isBreak_comments (c : Collection) : ∀ text ∈ c.comments, Avoids isBreak text := by
  have hwords : ∀ word ∈ commentWords, Avoids isBreak word := by decide +kernel
  have htold (text : String) : Avoids isBreak (commentText text) ↔ True :=
    iff_of_true (avoids_isBreak_commentText text) trivial
  exact (avoids_comments hwords htold c).mpr
    ⟨trivial, trivial, fun _ _ => ⟨trivial, trivial, trivial⟩⟩

theorem holdsComments_createBlock (c : Collection) :
    HoldsComments (c.createBlock.toList ++ ['\n'])
      [" Collection: " ++ commentText c.name, " " ++ commentText c.schema.description] := by
  have htitle := c.avoids_isBreak_comments (" Collection: " ++ commentText c.name)
    (by simp [comments])
  have hdescription := c.avoids_isBreak_comments (" " ++ commentText c.schema.description)
    (by simp [comments])
  have hopen : HoldsComments "db.createCollection(".toList [] := .of_isLoose rfl
  have hvalidator : HoldsComments ", \x7b\n  validator: \x7b\n    $jsonSchema: ".toList [] :=
    .of_isLoose rfl
  have hschema := HoldsComments.tokenwise.of_spelled (spelled_indent (c.schema.fits_toJson 0) 4)
  have hclose : HoldsComments "\n  \x7d\n\x7d);\n".toList [] := .of_isLoose rfl
  have hblock := (HoldsComments.comment htitle).append ((HoldsComments.comment hdescription).append
    (hopen.append ((HoldsComments.stringText c.name).append
      (hvalidator.append (hschema.append hclose)))))
  unfold createBlock
  simpa using hblock

theorem holdsComments_accessor (name : String) : HoldsComments (accessor name).toList [] := by
  unfold accessor
  split
  · rename_i hplain
    have hdb : HoldsComments "db.".toList [] := .of_isLoose rfl
    have hname : HoldsComments name.toList [] := by
      refine .of_isLoose (List.all_eq_true.mpr fun c hc => ?_)
      have hc := isPlainChar_of_isIdentifierChar ((isIdentifier_of_isPlainName hplain).2 c hc)
      simp only [isPlainChar, List.mem_cons, not_or, decide_eq_true_eq] at hc
      simp [HoldsComments.isLoose, hc]
    rw [String.toList_append]
    exact hdb.append hname
  · have hopen : HoldsComments "db.getCollection(".toList [] := .of_isLoose rfl
    have hclose : HoldsComments ")".toList [] := .of_isLoose rfl
    rw [String.toList_append, String.toList_append]
    exact (hopen.append (.stringText name)).append hclose

theorem holdsComments_sampleBlock (c : Collection) :
    HoldsComments (c.sampleBlock.toList ++ ['\n'])
      [" Sample document for " ++ commentText c.name] := by
  have hnote := c.avoids_isBreak_comments (" Sample document for " ++ commentText c.name)
    (by simp [comments])
  have hopen : HoldsComments ".insertOne(".toList [] := .of_isLoose rfl
  have hvalue : ∀ s ∈ ["1", "1.0", "ISODate()"], s.toList.all HoldsComments.isLoose = true := by
    decide
  have hdocument := tokenwise_sampleDocument HoldsComments.tokenwise
    (fun s hs => .of_isLoose (hvalue s hs)) c
  have hclose : HoldsComments ");\n".toList [] := .of_isLoose rfl
  have hblock := (HoldsComments.comment hnote).append
    ((holdsComments_accessor c.name).append (hopen.append (hdocument.append hclose)))
  unfold sampleBlock
  simpa using hblock

theorem holdsComments_indexText {c : Collection} {r : CollectionReference}
    (hr : r ∈ c.references) : HoldsComments ((c.indexText r).toList ++ ['\n']) [c.noteText r] := by
  have hnote := c.avoids_isBreak_comments (c.noteText r)
    (List.mem_append_right _ (List.mem_map_of_mem hr))
  have hopen : HoldsComments ".createIndex(\x7b ".toList [] := .of_isLoose rfl
  have hclose : HoldsComments ": 1 \x7d);\n".toList [] := .of_isLoose rfl
  have htext := (HoldsComments.comment hnote).append
    ((holdsComments_accessor c.name).append (hopen.append
      ((HoldsComments.stringText r.field).append hclose)))
  unfold indexText
  unfold noteText at htext ⊢
  simpa using htext

theorem holdsComments_blocks (c : Collection) :
    HoldsComments (c.blocks.flatMap fun block => ['\n'] ++ (block.toList ++ ['\n']))
      c.comments := by
  have hfeed : HoldsComments ['\n'] [] := .of_isLoose rfl
  have hblocks := (hfeed.append (holdsComments_createBlock c)).append
    (hfeed.append (holdsComments_sampleBlock c))
  unfold blocks comments
  by_cases hreferences : c.references = []
  · simpa [hreferences] using hblocks
  · have hindex := hfeed.append
      (HoldsComments.additive.lines hreferences fun r hr => holdsComments_indexText hr)
    simpa [hreferences] using hblocks.append hindex

theorem avoids_bannerComments : ∀ text ∈ bannerComments, Avoids isTerminator text := by
  decide +kernel

theorem holdsComments_banner : HoldsComments (banner.toList ++ ['\n']) bannerComments := by
  have hcomments := HoldsComments.additive.flatMap _ (fun text => [text])
    fun text htext => HoldsComments.comment (avoids_bannerComments text htext).isBreak
  rw [toList_banner]
  simpa using hcomments

/-! ## Comments of a script -/

/-- What the comments of a table tell: its name, its description, and the names in its
references. -/
def toldTexts (s : Scope) (t : Table) : List String :=
  t.name :: t.givenDescription?.toList ++
    (s.foreignKeys t).flatMap fun l => [l.column.name, l.target.table, l.target.column]

theorem avoids_comments_ofTable (s : Scope) (t : Table) :
    (∀ text ∈ (ofTable s t).comments, Avoids isTerminator text) ↔
      ∀ text ∈ toldTexts s t, Avoids isSeparator text := by
  have hsuffix : Avoids isSeparator " collection" := by decide
  have hdescription : Avoids isSeparator t.name →
      (Avoids isSeparator (t.givenDescription?.getD (t.name ++ " collection")) ↔
        ∀ text ∈ t.givenDescription?.toList, Avoids isSeparator text) := by
    intro hname
    cases t.givenDescription? with
    | none => simp [avoids_append, hname, hsuffix]
    | some description => simp
  have hreferences : (∀ r ∈ (ofTable s t).references, Avoids isSeparator r.field ∧
      Avoids isSeparator r.collection ∧ Avoids isSeparator r.foreignField) ↔
        ∀ l ∈ s.foreignKeys t, ∀ text ∈ [l.column.name, l.target.table, l.target.column],
          Avoids isSeparator text := by
    simp [ofTable, ofLink]
  have hwords : ∀ word ∈ commentWords, Avoids isTerminator word := by decide +kernel
  rw [avoids_comments hwords avoids_isTerminator_commentText, toldTexts, List.forall_mem_append,
    List.forall_mem_cons, List.forall_mem_flatMap, and_assoc]
  exact and_congr_right fun hname => and_congr (hdescription hname) hreferences

/-- The comments of a script are those of its collections, in order. -/
theorem commentsOf_shellText (s : Scope) : commentsOf (writtenPieces s.shellText) =
    bannerComments ++ s.tables.flatMap fun t => (ofTable s t).comments := by
  have hscript : HoldsComments s.shellText.toList
      (bannerComments ++ s.tables.flatMap fun t => (ofTable s t).comments) :=
    HoldsComments.additive.paragraphs holdsComments_banner fun t _ =>
      holdsComments_blocks (ofTable s t)
  have hread := hscript []
  have hend : feedComments [] = [] := rfl
  rw [List.append_nil, hend, List.append_nil] at hread
  exact hread

/-- The comments of a script have neither line feeds nor carriage returns. They are in one line
each, and a shell reads the script as it is written, if and only if what they tell has no
separators. -/
theorem comments_read_iff (tables : List Table) :
    let s := Scope.ofTables tables
    let comments := commentsOf (writtenPieces s.shellText)
    comments = bannerComments ++ s.tables.flatMap (fun t => (ofTable s t).comments) ∧
    (∀ text ∈ comments, Avoids isBreak text) ∧
    ((∀ text ∈ comments, Avoids isTerminator text) ↔
      ∀ t ∈ s.tables, ∀ text ∈ toldTexts s t, Avoids isSeparator text) ∧
    (readPieces s.shellText = writtenPieces s.shellText ↔
      ∀ t ∈ s.tables, ∀ text ∈ toldTexts s t, Avoids isSeparator text) := by
  intro s comments
  have hcomments : comments =
      bannerComments ++ s.tables.flatMap fun t => (ofTable s t).comments :=
    commentsOf_shellText s
  have hbreaks : ∀ text ∈ comments, Avoids isBreak text := by
    simp only [hcomments, List.forall_mem_append, List.forall_mem_flatMap]
    exact ⟨fun text htext => (avoids_bannerComments text htext).isBreak,
      fun t _ => (ofTable s t).avoids_isBreak_comments⟩
  have hlines : (∀ text ∈ comments, Avoids isTerminator text) ↔
      ∀ t ∈ s.tables, ∀ text ∈ toldTexts s t, Avoids isSeparator text := by
    simp only [hcomments, List.forall_mem_append, List.forall_mem_flatMap,
      avoids_comments_ofTable]
    exact and_iff_right avoids_bannerComments
  exact ⟨hcomments, hbreaks, hlines, (readPieces_eq_iff _).trans hlines⟩

/-- Texts with all kinds of line breaks that comments do away with, and slashes. -/
def brokenTables : List Table :=
  [.withColumns "user" [(Column.untyped "id").primaryKey],
    (Table.withColumns "mail\nbox" [(Column.untyped "// sender").references "user" "id"
      .manyToOne]).withDescription "one\r\ntwo"]

theorem comments_read_iff_brokenTables :
    let s := Scope.ofTables brokenTables
    (∀ t ∈ s.tables, ∀ text ∈ toldTexts s t, Avoids isSeparator text) ∧
    commentsOf (writtenPieces s.shellText) = bannerComments ++
      [" Collection: user", " user collection", " Sample document for user",
        " Collection: mail box", " one  two", " Sample document for mail box",
        " mail box.// sender references user.id (MANY-TO-ONE)"] ∧
    (∀ text ∈ commentsOf (writtenPieces s.shellText), Avoids isTerminator text) ∧
    readPieces s.shellText = writtenPieces s.shellText := by
  intro s
  have htold : ∀ t ∈ s.tables, ∀ text ∈ toldTexts s t, Avoids isSeparator text := by
    decide +kernel
  obtain ⟨hcomments, -, hlines, hread⟩ := comments_read_iff brokenTables
  refine ⟨htold, ?_, hlines.mpr htold, hread.mpr htold⟩
  rw [hcomments]
  decide +kernel

/-- A line separator in the name of a table ends comments early, and what the name has behind it is
read as a command. -/
theorem comment_ends_at_separator :
    let s := Scope.ofTables [.withColumns "a\u2028db.dropDatabase();//" [.untyped "id"]]
    let comment := " Collection: a\u2028db.dropDatabase();//"
    comment ∈ commentsOf (writtenPieces s.shellText) ∧ ¬ Avoids isTerminator comment ∧
    readPieces s.shellText ≠ writtenPieces s.shellText ∧
    commentsOf (readPieces ("//" ++ comment ++ "\n")) = [" Collection: a", ""] ∧
    codeOf (readPieces ("//" ++ comment ++ "\n")) = "\u2028db.dropDatabase();\n".toList := by
  intro s comment
  have hcomment : comment ∈ commentsOf (writtenPieces s.shellText) := by
    rw [commentsOf_shellText]
    decide +kernel
  have hterminator : ¬ Avoids isTerminator comment := by decide +kernel
  refine ⟨hcomment, hterminator, fun h => ?_, by decide +kernel, by decide +kernel⟩
  exact hterminator ((readPieces_eq_iff _).mp h comment hcomment)

end Collection
end SchemaScript

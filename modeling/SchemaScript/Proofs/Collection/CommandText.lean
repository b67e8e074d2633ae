import Mathlib.Data.List.Basic
import SchemaScript.Proofs.Collection.Indentation
import SchemaScript.Proofs.Collection.Passage
import SchemaScript.Proofs.Json.ReadBack

/-!
# SchemaScript.Proofs.Collection.CommandText

The commands of a collection are read from their texts (`ofChars?_create`, `ofChars?_insert`,
`ofChars?_index`), and their texts close all brackets that they open (`passage_createChars`,
`passage_sampleDocument`, `passage_indexChars`).
-/

namespace SchemaScript

/-! ## Words of a command -/

def IsIdentifier (name : List Char) : Prop :=
  name.head?.any (fun c => !c.isDigit) = true ∧ ∀ c ∈ name, isIdentifierChar c = true

instance (name : List Char) : Decidable (IsIdentifier name) :=
  decidable_of_iff (name.head?.any (fun c => !c.isDigit) = true ∧
    name.all isIdentifierChar = true) (and_congr_right fun _ => List.all_eq_true)

theorem identifier?_append {name : String} (hname : IsIdentifier name.toList) {c : Char}
    (hc : isIdentifierChar c = false) (rest : List Char) :
    identifier? (name.toList ++ c :: rest) = some (name, c :: rest) := by
  rw [identifier?, List.takeWhile_append_of_pos hname.2, List.dropWhile_append_of_pos hname.2,
    List.takeWhile_cons_of_neg (by simp [hc]), List.dropWhile_cons_of_neg (by simp [hc]),
    List.append_nil]
  cases hcs : name.toList with
  | nil =>
    rw [hcs] at hname
    cases hname.1
  | cons d cs =>
    rw [hcs] at hname
    have hdigit : d.isDigit = false := by simpa using hname.1
    have hlist : String.ofList (d :: cs) = name := by rw [← hcs, String.ofList_toList]
    simp [hdigit, hlist]

/-- Words that a text has are found whatever follows. -/
theorem words?_append {words : List String} (hwords : "" ∉ words) {text tail : List Char}
    (h : words? words text = some tail) (s : List Char) :
    words? words (text ++ s) = some (tail ++ s) := by
  induction words generalizing text with
  | nil =>
    cases h
    rfl
  | cons word words ih =>
    obtain ⟨rest, hrest, htail⟩ := Option.bind_eq_some_iff.mp h
    have hlater : "" ∉ words := fun hlater => hwords (by simp [hlater])
    have hword : word.toList ≠ [] := by
      intro hword
      have hempty : word = "" := String.toList_inj.mp hword
      exact hwords (by simp [hempty])
    have hfound : word.toList ++ rest = Json.skipSpace text :=
      List.append_eq_of_isPrefixOf?_eq_some hrest
    have hskip : Json.skipSpace (text ++ s) = word.toList ++ (rest ++ s) := by
      have hsome : (text.dropWhile Json.isSpace).isEmpty = false := by
        rw [Json.skipSpace] at hfound
        simp [← hfound, hword]
      rw [Json.skipSpace] at hfound ⊢
      rw [List.dropWhile_append, if_neg (by simp [hsome]), ← hfound, List.append_assoc]
    rw [words?, hskip, List.isPrefixOf?_eq_some_iff_append_eq.mpr rfl, Option.bind_some]
    exact ih hlater htail

theorem string?_stringText {ws : List Char} (hws : Json.IsSpaces ws) (s : String)
    (rest : List Char) : string? (ws ++ ((Json.stringText s).toList ++ rest)) = some (s, rest) := by
  have hquote : words? ["\""] (ws ++ ((Json.stringText s).toList ++ rest)) =
      some (Json.escapeChars s.toList ++ '"' :: rest) := by
    rw [words?, Json.skipSpace_append hws, Json.toList_stringText, List.cons_append,
      List.cons_append, Json.skipSpace_cons (by decide), List.append_assoc]
    rfl
  rw [string?, hquote, Option.bind_some, Json.readString_escapeChars]
  rfl

/-- The words in front of the name of a function or of a collection. -/
theorem words?_db (s : List Char) : words? ["db", "."] ("db.".toList ++ s) = some s := by
  have hdb : words? ["db", "."] "db.".toList = some [] := by decide +kernel
  exact words?_append (by decide) hdb s

/-! ## Expressions for collections -/

namespace Collection

theorem isDigit_iff {c : Char} : c.isDigit = true ↔ '0' ≤ c ∧ c ≤ '9' := by
  have hdigit : c.isDigit = (decide ('0' ≤ c) && decide (c ≤ '9')) := rfl
  rw [hdigit, Bool.and_eq_true, decide_eq_true_eq, decide_eq_true_eq]

theorem isAlpha_iff {c : Char} :
    c.isAlpha = true ↔ ('A' ≤ c ∧ c ≤ 'Z') ∨ ('a' ≤ c ∧ c ≤ 'z') := by
  have hupper : c.isUpper = decide ('A' ≤ c ∧ c ≤ 'Z') := rfl
  have hlower : c.isLower = (decide ('a' ≤ c) && decide (c ≤ 'z')) := rfl
  have halpha : c.isAlpha = (c.isUpper || c.isLower) := rfl
  rw [halpha, hupper, hlower]
  simp only [Bool.or_eq_true, Bool.and_eq_true, decide_eq_true_eq]

theorem isIdentifierChar_of_isNameStart {c : Char} (h : isNameStart c = true) :
    isIdentifierChar c = true ∧ c.isDigit = false := by
  simp only [isNameStart, Bool.or_eq_true, Bool.and_eq_true, decide_eq_true_eq, beq_iff_eq] at h
  rcases h with (h | rfl) | rfl
  · have halpha : c.isAlpha = true := isAlpha_iff.mpr h
    have hdigit : ¬ ('0' ≤ c ∧ c ≤ '9') := by
      have hA : 'A'.val.toNat = 65 := rfl
      have ha : 'a'.val.toNat = 97 := rfl
      have h9 : '9'.val.toNat = 57 := rfl
      simp only [Char.le_def, UInt32.le_iff_toNat_le] at h ⊢
      omega
    exact ⟨by simp [isIdentifierChar, Char.isAlphanum, halpha],
      Bool.eq_false_iff.mpr fun hc => hdigit (isDigit_iff.mp hc)⟩
  · decide
  · decide

theorem isIdentifierChar_of_isNamePart {c : Char} (h : isNamePart c = true) :
    isIdentifierChar c = true := by
  simp only [isNamePart, Bool.or_eq_true, Bool.and_eq_true, decide_eq_true_eq] at h
  rcases h with h | h
  · exact (isIdentifierChar_of_isNameStart h).1
  · simp [isIdentifierChar, Char.isAlphanum, isDigit_iff.mpr h]

theorem isIdentifier_of_isPlainName {name : String} (h : isPlainName name = true) :
    IsIdentifier name.toList := by
  unfold isPlainName at h
  split at h
  · cases h
  · rename_i c rest hname
    simp only [Bool.and_eq_true, List.all_eq_true] at h
    have hc := isIdentifierChar_of_isNameStart h.1
    rw [hname]
    refine ⟨by simp [hc.2], fun d hd => ?_⟩
    rcases List.mem_cons.mp hd with rfl | hd
    · exact hc.1
    · exact isIdentifierChar_of_isNamePart (h.2 d hd)

theorem isPlainChar_of_isIdentifierChar {c : Char} (h : isIdentifierChar c = true) :
    isPlainChar c = true := by
  rw [isPlainChar, decide_eq_true_eq]
  intro hc
  simp only [List.mem_cons, List.not_mem_nil, or_false] at hc
  rcases hc with rfl | rfl | rfl | rfl | rfl | rfl | rfl | rfl | rfl <;> exact absurd h (by decide)

/-- The expression for a collection has no open brackets, and starts as commands do. -/
theorem passage_accessor (name : String) :
    ∃ cs, (accessor name).toList = 'd' :: cs ∧ Passage [] [] cs := by
  unfold accessor
  split
  · rename_i hplain
    have hname : Passage [] [] name.toList := passage_of_isPlainChar fun c hc =>
      isPlainChar_of_isIdentifierChar ((isIdentifier_of_isPlainName hplain).2 c hc)
    have hdb : Passage [] [] ['b', '.'] := passage_plain rfl
    exact ⟨_, by simp, hdb.append hname⟩
  · have hopen : Passage [] [')'] "b.getCollection(".toList := passage_plain rfl
    have hclose : Passage [')'] [] [')'] := passage_plain rfl
    exact ⟨_, by simp, hopen.append (((passage_stringText name).frame _).append hclose)⟩

/-- What follows the expression for a collection is a method of this collection. -/
theorem ofChars?_accessor (name : String) (rest : List Char) :
    ShellCommand.ofChars? ((accessor name).toList ++ '.' :: rest) =
      ShellCommand.method? name ('.' :: rest) := by
  unfold accessor
  split
  · rename_i hplain
    have hname := identifier?_append (isIdentifier_of_isPlainName hplain)
      (by decide : isIdentifierChar '.' = false) rest
    have hcall : words? ["("] ('.' :: rest) = none := rfl
    rw [String.toList_append, List.append_assoc]
    simp only [ShellCommand.ofChars?, words?_db, hname, hcall, Option.bind_eq_bind,
      Option.bind_some]
  · have htext : ("db.getCollection(" ++ Json.stringText name ++ ")").toList ++ '.' :: rest =
        "db.".toList ++ ("getCollection".toList ++
          '(' :: ((Json.stringText name).toList ++ ')' :: '.' :: rest)) := by
      simp
    have hfunction (s : List Char) : identifier? ("getCollection".toList ++ '(' :: s) =
        some ("getCollection", '(' :: s) :=
      identifier?_append (by decide +kernel) (by decide) s
    have hcall (s : List Char) : words? ["("] ('(' :: s) = some s := rfl
    have hname := string?_stringText Json.isSpaces_nil name (')' :: '.' :: rest)
    have hclose (s : List Char) : words? [")"] (')' :: s) = some s := rfl
    have hother : "getCollection" ≠ "createCollection" := by decide
    rw [List.nil_append] at hname
    rw [htext]
    simp only [ShellCommand.ofChars?, words?_db, hfunction, hcall, hname, hclose, if_neg hother,
      if_true, Option.bind_eq_bind, Option.bind_some]

/-! ## Texts of commands -/

/-- What stands behind `createCollection` and its bracket. -/
def createChars (c : Collection) : List Char :=
  (Json.stringText c.name).toList ++ (", \x7b\n  validator: \x7b\n    $jsonSchema: ".toList ++
    ((indent c.schema.toJson.pretty 4).toList ++ "\n  \x7d\n\x7d)".toList))

/-- What stands behind `createIndex` and its bracket. -/
def indexChars (r : CollectionReference) : List Char :=
  "\x7b ".toList ++ ((Json.stringText r.field).toList ++ ": 1 \x7d)".toList)

theorem create?_createChars (c : Collection) : ShellCommand.create? c.createChars =
    some (.createCollection c.name c.schema.toJson) := by
  have hname (rest : List Char) := string?_stringText Json.isSpaces_nil c.name rest
  have hopen (s : List Char) : words? [",", "\x7b", "validator", ":", "\x7b", "$jsonSchema", ":"]
      (", \x7b\n  validator: \x7b\n    $jsonSchema: ".toList ++ s) =
        some (List.replicate 1 ' ' ++ s) :=
    words?_append (by decide) (by decide +kernel) s
  have hdepth : Json.largestDepth = 124 + 3 := rfl
  have hspelled := spelled_indent (c.schema.fits_toJson 124) 4
  have hschema (rest : List Char) : Json.readValue Json.largestDepth
      (List.replicate 1 ' ' ++ ((indent c.schema.toJson.pretty 4).toList ++ rest)) =
        .ok (c.schema.toJson, rest) := by
    rw [Json.readValue_skipSpace _ (Json.isSpaces_blanks 1), hdepth,
      Json.readValue_of_spelled hspelled]
  have hclose : words? ["\x7d", "\x7d", ")"] "\n  \x7d\n\x7d)".toList = some [] := by
    decide +kernel
  have hend : Json.skipSpace [] = [] := rfl
  simp only [List.nil_append] at hname
  simp only [ShellCommand.create?, createChars, hname, hopen, hschema, hclose, hend,
    Except.toOption, Option.bind_eq_bind, Option.bind_some, if_true]

theorem index?_indexChars (collection : String) (r : CollectionReference) :
    ShellCommand.index? collection (indexChars r) = some (.createIndex collection r.field) := by
  have hopen (s : List Char) : words? ["\x7b"] ("\x7b ".toList ++ s) =
      some (List.replicate 1 ' ' ++ s) :=
    words?_append (by decide) (by decide +kernel) s
  have hfield (rest : List Char) :=
    string?_stringText (Json.isSpaces_blanks 1) r.field rest
  have hclose : words? [":", "1", "\x7d", ")"] ": 1 \x7d)".toList = some [] := by decide +kernel
  have hend : Json.skipSpace [] = [] := rfl
  simp only [ShellCommand.index?, indexChars, hopen, hfield, hclose, hend, Option.bind_eq_bind,
    Option.bind_some, if_true]

theorem ofChars?_create (c : Collection) :
    ShellCommand.ofChars? ("db.".toList ++ ("createCollection".toList ++ '(' :: c.createChars)) =
      some (.createCollection c.name c.schema.toJson) := by
  have hfunction (s : List Char) : identifier? ("createCollection".toList ++ '(' :: s) =
      some ("createCollection", '(' :: s) :=
    identifier?_append (by decide +kernel) (by decide) s
  have hcall (s : List Char) : words? ["("] ('(' :: s) = some s := rfl
  simp only [ShellCommand.ofChars?, words?_db, hfunction, hcall, create?_createChars,
    Option.bind_eq_bind, Option.bind_some, if_true]

theorem method?_call (collection : String) {method : String} (hmethod : IsIdentifier method.toList)
    (s : List Char) :
    ShellCommand.method? collection ('.' :: (method.toList ++ '(' :: s)) =
      if method = "insertOne" then ShellCommand.insert? collection s
      else if method = "createIndex" then ShellCommand.index? collection s
      else none := by
  have hpoint (s : List Char) : words? ["."] ('.' :: s) = some s := rfl
  have hname := identifier?_append hmethod (by decide : isIdentifierChar '(' = false) s
  have hcall : words? ["("] ('(' :: s) = some s := rfl
  simp only [ShellCommand.method?, hpoint, hname, hcall, Option.bind_eq_bind, Option.bind_some]

theorem ofChars?_insert (name document : String) :
    ShellCommand.ofChars? ((accessor name).toList ++
      '.' :: ("insertOne".toList ++ '(' :: (document.toList ++ [')']))) =
        some (.insertOne name document) := by
  rw [ofChars?_accessor, method?_call name (by decide +kernel), if_pos rfl]
  simp [ShellCommand.insert?]

theorem ofChars?_index (name : String) (r : CollectionReference) :
    ShellCommand.ofChars? ((accessor name).toList ++
      '.' :: ("createIndex".toList ++ '(' :: indexChars r)) = some (.createIndex name r.field) := by
  rw [ofChars?_accessor, method?_call name (by decide +kernel), if_neg (by decide), if_pos rfl,
    index?_indexChars]

/-! ## Brackets of commands -/

theorem passage_createChars (c : Collection) : Passage [')'] [] c.createChars := by
  have hopen : Passage [')'] ['\x7d', '\x7d', ')']
      ", \x7b\n  validator: \x7b\n    $jsonSchema: ".toList := passage_plain rfl
  have hclose : Passage ['\x7d', '\x7d', ')'] [] "\n  \x7d\n\x7d)".toList := passage_plain rfl
  have hschema := passage_spelled (spelled_indent (c.schema.fits_toJson 0) 4)
  exact ((passage_stringText c.name).frame _).append
    (hopen.append ((hschema.frame _).append hclose))

theorem passage_indexChars (r : CollectionReference) : Passage [')'] [] (indexChars r) := by
  have hopen : Passage [')'] ['\x7d', ')'] "\x7b ".toList := passage_plain rfl
  have hclose : Passage ['\x7d', ')'] [] ": 1 \x7d)".toList := passage_plain rfl
  exact hopen.append (((passage_stringText r.field).frame _).append hclose)

/-- What can be checked token by token is known of sample documents, whose values are not all
JSON. -/
theorem tokenwise_sampleDocument {p : List Char → Prop} (hp : Json.Tokenwise p)
    (hvalue : ∀ s ∈ ["1", "1.0", "ISODate()"], p s.toList) (c : Collection) :
    p c.sampleDocument.toList := by
  have hempty : p "\x7b\x7d".toList := hp.object (hp.spaces Json.isSpaces_nil)
  have hstring (s : String) : p (Json.stringText s).toList := by
    rw [Json.toList_stringText]
    exact hp.string s
  have hsample (field : String) (storage : StorageType) :
      p (sampleValue field storage).toList := by
    cases storage with
    | int => exact hvalue "1" (by decide)
    | double => exact hvalue "1.0" (by decide)
    | bool => exact hp.token "true" (by decide)
    | date => exact hvalue "ISODate()" (by decide)
    | object => exact hempty
    | string => exact hstring _
  unfold sampleDocument
  split
  · exact hempty
  · have hcomma : p [','] := hp.token "," (by decide)
    have hcolon : p [':'] := hp.token ":" (by decide)
    have hfeed : p ['\n'] := hp.spaces (Json.isSpaces_cons rfl Json.isSpaces_nil)
    have hlines : p (String.intercalate ",\n" (c.fields.map fun f =>
        "  " ++ Json.stringText f.1 ++ ": " ++ sampleValue f.1 f.2)).toList := by
      rw [String.toList_intercalate]
      refine Text.of_intercalate (hp.spaces Json.isSpaces_nil) hp.append
        (hp.append hcomma hfeed) fun cs hcs => ?_
      obtain ⟨text, htext, rfl⟩ := List.mem_map.mp hcs
      obtain ⟨f, -, rfl⟩ := List.mem_map.mp htext
      simp only [String.toList_append]
      exact hp.append (hp.append (hp.append (hp.spaces (Json.isSpaces_blanks 2)) (hstring f.1))
        (hp.append hcolon (hp.spaces (Json.isSpaces_blanks 1)))) (hsample f.1 f.2)
    have hdocument := hp.object (hp.append hfeed (hp.append hlines hfeed))
    simpa using hdocument

theorem passage_sampleDocument (c : Collection) : Passage [] [] c.sampleDocument.toList := by
  refine tokenwise_sampleDocument passage_tokenwise (fun s hs => ?_) c
  have hclosed : ∀ s ∈ ["1", "1.0", "ISODate()"], awaitedBehindText [] s.toList = some [] := by
    decide
  exact passage_plain (hclosed s hs)

end Collection
end SchemaScript

import SchemaScript.Script.Statement

/-!
# SchemaScript.Proofs.Script.Statements

The statements of a script, block by block, and where they stand in its text.

* `Scope.statements_eq`: the statements of the header, of the tables, of sequences and of triggers
  come first, and all constraints behind them.
* `Scope.scriptText_of_statements_eq`: of two statements the text of the earlier one is the earlier
  text.
-/

namespace SchemaScript

/-- The texts occur in `text` one behind the other. -/
def InOrder : List String → String → Prop
  | [], _ => True
  | first :: texts, text => ∃ gap rest, text = gap ++ (first ++ rest) ∧ InOrder texts rest

namespace InOrder

theorem behind {texts : List String} {a b : String} (h : InOrder texts b) :
    InOrder texts (a ++ b) := by
  cases texts with
  | nil => trivial
  | cons first texts =>
    obtain ⟨gap, rest, rfl, hrest⟩ := h
    exact ⟨a ++ gap, rest, String.append_assoc.symm, hrest⟩

theorem append {ts us : List String} {a b : String} (ha : InOrder ts a) (hb : InOrder us b) :
    InOrder (ts ++ us) (a ++ b) := by
  induction ts generalizing a with
  | nil => exact hb.behind
  | cons first ts ih =>
    obtain ⟨gap, rest, rfl, hrest⟩ := ha
    exact ⟨gap, rest ++ b, by simp only [String.append_assoc], ih hrest⟩

theorem single (text : String) : InOrder [text] text :=
  ⟨"", "", by simp, trivial⟩

theorem intercalate {ι : Type} {texts : ι → List String} {text : ι → String} (sep : String)
    {items : List ι} (h : ∀ i ∈ items, InOrder (texts i) (text i)) :
    InOrder (items.flatMap texts) (String.intercalate sep (items.map text)) := by
  induction items with
  | nil => trivial
  | cons i items ih =>
    have hi := h i (by simp)
    have hitems := ih fun j hj => h j (by simp [hj])
    cases items with
    | nil => simpa using hi
    | cons j items =>
      rw [List.map_cons, List.map_cons, String.intercalate_cons_cons, String.append_assoc,
        List.flatMap_cons]
      exact hi.append hitems.behind

theorem drop {dropped texts : List String} {text : String} (h : InOrder (dropped ++ texts) text) :
    ∃ a rest, text = a ++ rest ∧ InOrder texts rest := by
  induction dropped generalizing text with
  | nil => exact ⟨"", text, by simp, h⟩
  | cons first dropped ih =>
    obtain ⟨gap, rest, rfl, hrest⟩ := h
    obtain ⟨a, rest, rfl, htexts⟩ := ih hrest
    exact ⟨gap ++ first ++ a, rest, by simp only [String.append_assoc], htexts⟩

/-- Two of the texts, with what stands around them. -/
theorem exists_around {before between after : List String} {x y text : String}
    (h : InOrder (before ++ x :: (between ++ y :: after)) text) :
    ∃ a b c, text = a ++ x ++ b ++ y ++ c := by
  obtain ⟨a, _, rfl, gap, rest, rfl, hrest⟩ := h.drop
  obtain ⟨b, _, rfl, gap', c, rfl, -⟩ := hrest.drop
  exact ⟨a ++ gap, b ++ gap', c, by simp only [String.append_assoc]⟩

end InOrder

theorem Statement.text_addConstraint (p : Profile) (s : Scope) (k : Constraint) :
    (Statement.addConstraint k).text p s = k.statement p := rfl

theorem flatMap_statements_filter (bs : List Block) :
    (bs.filter fun b => !b.statements.isEmpty).flatMap (·.statements) =
      bs.flatMap (·.statements) := by
  induction bs with
  | nil => rfl
  | cons b bs ih =>
    cases hb : b.statements with
    | nil => simp [hb, ih]
    | cons st sts => simp [hb, ih]

namespace Scope

variable {s : Scope} {p : Profile}

/-- All statements of the script. -/
def statements (s : Scope) (p : Profile) : List Statement :=
  (s.blocks p).flatMap (·.statements)

/-- The statements in front of the constraints. -/
def definitions (s : Scope) (p : Profile) : List Statement :=
  p.headerStatements.map .header ++ s.tables.map .createTable ++
    (s.sequenceColumns p).map (fun n => .createSequence n.1 n.2) ++
    (s.sequenceColumns p).map (fun n => .createTrigger n.1 n.2)

theorem statements_eq :
    s.statements p =
      s.definitions p ++ (s.tables.flatMap (p.deferredConstraints s)).map .addConstraint := by
  rw [statements, blocks, flatMap_statements_filter]
  simp only [allBlocks, definitions, List.flatMap_append, List.flatMap_cons, List.flatMap_nil,
    List.flatMap_map, List.append_nil, List.append_assoc]
  rw [← List.map_eq_flatMap]

theorem inOrder_scriptText :
    InOrder ((s.statements p).map (·.text p s)) (s.scriptText p) := by
  have hblock (b : Block) : InOrder (b.statements.map (·.text p s)) (b.text p s) := by
    have hbody := InOrder.intercalate b.separator fun (st : Statement) (_ : st ∈ b.statements) =>
      InOrder.single (st.text p s)
    rw [← List.map_eq_flatMap] at hbody
    exact hbody.behind
  have hblocks := InOrder.intercalate "\n\n" fun (b : Block) (_ : b ∈ s.blocks p) => hblock b
  rw [statements, List.map_flatMap, scriptText]
  have hend : InOrder [] "\n" := trivial
  simpa using hblocks.append hend

theorem scriptText_of_statements_eq {before between after : List Statement} {x y : Statement}
    (h : s.statements p = before ++ x :: (between ++ y :: after)) :
    ∃ a b c, s.scriptText p = a ++ x.text p s ++ b ++ y.text p s ++ c := by
  have horder := inOrder_scriptText (s := s) (p := p)
  rw [h, List.map_append, List.map_cons, List.map_append, List.map_cons] at horder
  exact horder.exists_around

end Scope
end SchemaScript

import SchemaScript.Proofs.Json.LexemeLayout
import SchemaScript.Proofs.Text.Intercalate

/-!
# SchemaScript.Proofs.Json.Squeezed

JSON texts without the white space outside of their strings (`squeeze?`).

* `squeeze?_relaid`: the white space at the ends of lines does not count, if no string has any.
* `squeeze?_pretty`: with one item to a line a value has the characters that it has in one line.
-/

namespace SchemaScript
namespace Json

/-- What a reader of a JSON text stands in. -/
inductive Region where
  | outside
  | string
  /-- Inside of a string, behind a backslash. -/
  | escape
deriving DecidableEq, Repr

/-- The region behind a character that is no white space. -/
def Region.next : Region → Char → Region
  | .outside, c => if c = '"' then .string else .outside
  | .string, c => if c = '"' then .outside else if c = '\\' then .escape else .string
  | .escape, _ => .string

/-- The text without white space outside of strings. There is none if a string has a control or is
not closed. -/
def squeezeFrom (region : Region) : List Char → Option (List Char)
  | [] => if region = .outside then some [] else none
  | c :: cs =>
    if region = .outside ∧ isSpace c = true then squeezeFrom .outside cs
    else if region ≠ .outside ∧ c.toNat < 32 then none
    else (squeezeFrom (region.next c) cs).map (c :: ·)

def squeeze? (text : String) : Option String :=
  (squeezeFrom .outside text.toList).map String.ofList

/-! ## Line ends -/

theorem squeezeFrom_spaces {ws : List Char} (hws : IsSpaces ws) (s : List Char) :
    squeezeFrom .outside (ws ++ s) = squeezeFrom .outside s := by
  induction ws with
  | nil => rfl
  | cons c ws ih =>
    have hc : isSpace c = true := hws c (by simp)
    rw [List.cons_append, squeezeFrom, if_pos ⟨rfl, hc⟩]
    exact ih fun d hd => hws d (by simp [hd])

/-- No string goes over the end of a line. -/
theorem IsLineEnd.squeezeFrom {s : List Char} (h : IsLineEnd s) {region : Region}
    (hregion : region ≠ .outside) : squeezeFrom region s = none := by
  obtain rfl | ⟨c, rest, rfl, hc⟩ := h
  · rw [Json.squeezeFrom, if_neg hregion]
  · have hcontrol : c.toNat < 32 := by
      rcases isLineMark_iff.mp hc with rfl | rfl <;> decide
    rw [Json.squeezeFrom, if_neg fun h => hregion h.1, if_pos ⟨hregion, hcontrol⟩]

theorem squeezeFrom_relaid {s t : List Char} (h : Relaid s t) (region : Region) :
    squeezeFrom region s = squeezeFrom region t := by
  induction h generalizing region with
  | @ends ws ws' hws hws' =>
    by_cases hregion : region = .outside
    · have hspaces {ws : List Char} (h : ws = [] ∨ IsBreak ws) :
          squeezeFrom .outside ws = some [] := by
        have hskip := squeezeFrom_spaces (h.elim (fun h => h ▸ isSpaces_nil) (·.isSpaces)) []
        rwa [List.append_nil] at hskip
      rw [hregion, hspaces hws, hspaces hws']
    · rw [(isLineEnd_of_ends hws).squeezeFrom hregion,
        (isLineEnd_of_ends hws').squeezeFrom hregion]
  | same c _ ih => simp only [squeezeFrom, ih]
  | @breaks ws ws' s t hws hws' _ ih =>
    by_cases hregion : region = .outside
    · rw [hregion, squeezeFrom_spaces hws.isSpaces, squeezeFrom_spaces hws'.isSpaces, ih]
    · rw [(hws.isLineEnd s).squeezeFrom hregion, (hws'.isLineEnd t).squeezeFrom hregion]

theorem squeeze?_relaid {text text' : String} (h : Relaid text.toList text'.toList) :
    squeeze? text' = squeeze? text := by
  rw [squeeze?, squeeze?, squeezeFrom_relaid h]

/-! ## Written values -/

/-- Between strings, `ds` is left of `cs`. -/
def SqueezesTo (cs ds : List Char) : Prop :=
  ∀ rest, squeezeFrom .outside (cs ++ rest) = (squeezeFrom .outside rest).map (ds ++ ·)

theorem SqueezesTo.append {a b c d : List Char} (hab : SqueezesTo a b) (hcd : SqueezesTo c d) :
    SqueezesTo (a ++ c) (b ++ d) := by
  intro rest
  rw [List.append_assoc, hab, hcd, Option.map_map]
  simp [Function.comp_def]

theorem squeezesTo_spaces {ws : List Char} (hws : IsSpaces ws) : SqueezesTo ws [] := by
  intro rest
  simp [squeezeFrom_spaces hws]

/-- A character that stands for itself outside of strings. -/
def isBareChar (c : Char) : Bool :=
  !isSpace c && c != '"'

def IsBare (cs : List Char) : Prop :=
  ∀ c ∈ cs, isBareChar c = true

instance (cs : List Char) : Decidable (IsBare cs) :=
  decidable_of_iff (cs.all isBareChar = true) List.all_eq_true

theorem squeezesTo_bare {cs : List Char} (h : IsBare cs) : SqueezesTo cs cs := by
  intro rest
  induction cs with
  | nil => simp
  | cons c cs ih =>
    have hc := h c (by simp)
    simp only [isBareChar, Bool.and_eq_true, Bool.not_eq_true', bne_iff_ne] at hc
    rw [List.cons_append, squeezeFrom, if_neg (by simp [hc.1]), if_neg (by simp), Region.next,
      if_neg hc.2, ih fun d hd => h d (by simp [hd]), Option.map_map]
    rfl

/-! ## Numbers -/

theorem IsBare.append {cs ds : List Char} (hcs : IsBare cs) (hds : IsBare ds) :
    IsBare (cs ++ ds) := by
  intro c hc
  exact (List.mem_append.mp hc).elim (hcs c) (hds c)

theorem isBare_zeros (n : Nat) : IsBare (List.replicate n '0') := by
  intro c hc
  rw [List.eq_of_mem_replicate hc]
  rfl

theorem isBareChar_of_isDigit {c : Char} (h : c.isDigit = true) : isBareChar c = true := by
  cases hc : isBareChar c with
  | true => rfl
  | false =>
    simp only [isBareChar, isSpace, Bool.and_eq_false_iff, Bool.not_eq_false', Bool.or_eq_true,
      beq_iff_eq, bne_eq_false_iff_eq] at hc
    rcases hc with (((rfl | rfl) | rfl) | rfl) | rfl <;> exact absurd h (by decide)

theorem isBare_toString (n : Nat) : IsBare (toString n).toList := by
  intro c hc
  rw [Nat.toString_eq_repr, Nat.toList_repr] at hc
  exact isBareChar_of_isDigit (Nat.isDigit_of_mem_toDigits (by decide) (by decide) hc)

theorem isBare_digitsText (d : Decimal.Digits) : IsBare d.text.toList := by
  have hdigits := isBare_toString d.digits
  unfold Decimal.Digits.text
  generalize (toString d.digits).toList = ds at hdigits
  have hpart {cs : List Char} (h : cs ⊆ ds) : IsBare cs := fun c hc => hdigits c (h hc)
  have hpoint : IsBare ['.'] := by decide
  have hzero : IsBare ['0', '.'] := by decide
  simp only
  split
  · split
    · rw [String.toList_append, String.toList_ofList]
      exact (hdigits.append (isBare_zeros _)).append (by decide)
    split
    · rw [String.toList_ofList]
      exact (hpart (List.take_subset _ _)).append
        (hpoint.append (hpart (List.drop_subset _ _)))
    · rw [String.toList_ofList]
      exact hzero.append ((isBare_zeros _).append hdigits)
  · rw [String.toList_append, String.toList_ofList]
    refine IsBare.append (IsBare.append ?_ ?_) ?_
    · split
      · exact hdigits
      · exact hdigits
      · rename_i c rest _ _
        have hfirst : IsBare [c] := hpart (by simp)
        exact hfirst.append (hpoint.append (hpart (List.subset_cons_self c rest)))
    · split <;> decide
    · split
      · rw [String.toList_append]
        exact IsBare.append (by decide) (isBare_toString _)
      · exact isBare_toString _

theorem isBare_doubleText (bits : UInt64) : IsBare (Decimal.doubleText bits).toList := by
  unfold Decimal.doubleText
  have hsize (biased fraction : Nat) : IsBare (
      if biased = 2047 then (if fraction = 0 then "inf" else "NaN")
      else if biased = 0 ∧ fraction = 0 then "0.0"
      else (Decimal.shortest biased fraction).text).toList := by
    split
    · split <;> decide
    · split
      · decide
      · exact isBare_digitsText _
  simp only
  split
  · rw [String.toList_append]
    exact IsBare.append (by decide) (hsize _ _)
  · exact hsize _ _

theorem isBare_numberText (n : Number) : IsBare n.text.toList := by
  cases n with
  | natural n => exact isBare_toString n
  | negative n =>
    rw [Number.text, String.toList_append]
    exact IsBare.append (by decide) (isBare_toString n)
  | double bits => exact isBare_doubleText bits

/-! ## Strings and containers -/

/-- Inside of a string everything is kept, and a backslash hides the character behind it. -/
theorem squeezeFrom_escapeChars (cs : List Char) :
    ∀ rest, squeezeFrom .string (escapeChars cs ++ rest) =
      (squeezeFrom .string rest).map (escapeChars cs ++ ·) := by
  refine of_escapeChars (p := fun cs => ∀ rest, squeezeFrom .string (cs ++ rest) =
    (squeezeFrom .string rest).map (cs ++ ·)) ?_ ?_ ?_ ?_ cs
  · intro rest
    simp
  · intro cs ds hcs hds rest
    rw [List.append_assoc, hcs, hds, Option.map_map]
    simp [Function.comp_def]
  · intro c hquote hslash hc rest
    have hcontrol : ¬ c.toNat < 32 := by omega
    simp [squeezeFrom, Region.next, hquote, hslash, hcontrol]
  · intro c hc rest
    have hcontrol : ¬ c.toNat < 32 := by omega
    simp [squeezeFrom, Region.next, hcontrol, Function.comp_def]

theorem squeezesTo_stringText (s : String) :
    SqueezesTo (stringText s).toList (stringText s).toList := by
  intro rest
  have hopen (cs : List Char) : squeezeFrom .outside ('"' :: cs) =
      (squeezeFrom .string cs).map ('"' :: ·) := rfl
  have hclose (cs : List Char) : squeezeFrom .string ('"' :: cs) =
      (squeezeFrom .outside cs).map ('"' :: ·) := rfl
  rw [toList_stringText, List.append_assoc, List.cons_append, hopen, squeezeFrom_escapeChars,
    List.singleton_append, hclose, Option.map_map, Option.map_map]
  simp [Function.comp_def]

theorem SqueezesTo.intercalate {ι : Type} {sep sep' : List Char} (hsep : SqueezesTo sep sep')
    {f g : ι → List Char} (is : List ι) (h : ∀ i ∈ is, SqueezesTo (f i) (g i)) :
    SqueezesTo (sep.intercalate (is.map f)) (sep'.intercalate (is.map g)) := by
  induction is with
  | nil => exact squeezesTo_spaces isSpaces_nil
  | cons i is ih =>
    have hi := h i (by simp)
    cases is with
    | nil => simpa using hi
    | cons j is =>
      simp only [List.map_cons, List.intercalate_cons_cons] at ih ⊢
      exact (hi.append hsep).append (ih fun k hk => h k (by simp [hk]))

/-- Items one to a line have the characters of items in one line. -/
theorem squeezesTo_bracketed {ι : Type} (level : Nat) {opening closing : String}
    (ho : IsBare opening.toList) (hc : IsBare closing.toList) (pretty compact : ι → String)
    (is : List ι) (h : ∀ i ∈ is, SqueezesTo (pretty i).toList (compact i).toList) :
    SqueezesTo (bracketed level opening closing (is.map pretty)).toList
      (opening ++ String.intercalate "," (is.map compact) ++ closing).toList := by
  have hline : SqueezesTo "\n".toList [] := squeezesTo_spaces (isSpaces_cons rfl isSpaces_nil)
  have hpad (n : Nat) : SqueezesTo (levelPad n).toList [] := by
    rw [levelPad, String.toList_ofList]
    exact squeezesTo_spaces (isSpaces_blanks _)
  have hcomma : SqueezesTo ",\n".toList ",".toList :=
    (squeezesTo_bare (by decide : IsBare [','])).append hline
  have hopen := squeezesTo_bare ho
  have hclose := squeezesTo_bare hc
  cases is with
  | nil =>
    simpa [bracketed] using hopen.append hclose
  | cons i is =>
    have hitems := hcomma.intercalate (i :: is) fun j hj => (hpad (level + 1)).append (h j hj)
    have htext := (((hopen.append hline).append hitems).append hline).append (hpad level)
    simpa only [bracketed, List.map_cons, List.map_map, Function.comp_def, String.toList_append,
      String.toList_intercalate, List.append_nil, List.nil_append] using htext.append hclose

theorem squeezesTo_prettyAt (level : Nat) (v : Value) :
    SqueezesTo (v.prettyAt level).toList v.compact.toList := by
  cases v with
  | null => exact squeezesTo_bare (by decide : IsBare "null".toList)
  | bool b =>
    cases b with
    | true => exact squeezesTo_bare (by decide : IsBare "true".toList)
    | false => exact squeezesTo_bare (by decide : IsBare "false".toList)
  | number n => exact squeezesTo_bare (isBare_numberText n)
  | string s => exact squeezesTo_stringText s
  | array items =>
    rw [Value.prettyAt, Value.compact, prettyItems_eq, compactItems_eq]
    exact squeezesTo_bracketed level (by decide) (by decide) _ _ items fun v hv =>
      squeezesTo_prettyAt (level + 1) v
  | object members =>
    rw [Value.prettyAt, Value.compact, prettyMembers_eq, compactMembers_eq]
    refine squeezesTo_bracketed level (by decide) (by decide) _ _ members ?_
    rintro ⟨name, v⟩ hm
    have hcolon : SqueezesTo ": ".toList ":".toList :=
      (squeezesTo_bare (by decide : IsBare [':'])).append (squeezesTo_spaces (isSpaces_blanks 1))
    simp only [String.toList_append]
    exact ((squeezesTo_stringText name).append hcolon).append (squeezesTo_prettyAt (level + 1) v)
termination_by v
decreasing_by
  · have hsize := List.sizeOf_lt_of_mem hv
    rw [Value.array.sizeOf_spec]
    omega
  · have hsize := List.sizeOf_lt_of_mem hm
    rw [Prod.mk.sizeOf_spec] at hsize
    rw [Value.object.sizeOf_spec]
    omega

theorem squeeze?_pretty (v : Value) : squeeze? v.pretty = some v.compact := by
  have h := squeezesTo_prettyAt 0 v []
  rw [List.append_nil] at h
  rw [squeeze?, Value.pretty, h]
  simp [squeezeFrom]

end Json
end SchemaScript

import Mathlib.Data.List.Infix
import SvgDiagram.Proofs.Render.Extent

/-!
Whose size the size of a page is. A picture begins with the start tag of its root, which has attributes, and the
size is meant to be the root's. But it is looked for in the text, in which an attribute is found wherever the
end of a name is followed by an equals sign, a quote and a digit. Main statement: where it is found, in the order
of the text, and so when a root that gives no size is shown at the default one.
-/

namespace SvgDiagram
namespace Render

section
variable {name back : List Char} {x : Char}

/-- A character behind which a search starts anew, unless it is the quote of a value with digits. -/
structure Stops (name : List Char) (x : Char) : Prop where
  notMem : x ∉ name
  ne_equals : x ≠ '='
  not_digit : Text.isDigit x = false

theorem digitsHere?_stop (hx : Stops name x) : digitsHere? name (x :: back) = none := by
  rw [Option.eq_none_iff_forall_ne_some]
  intro digits h
  obtain ⟨quote, rest, htext, -⟩ := digitsHere?_eq_some.mp h
  cases name with
  | nil => exact hx.ne_equals (List.cons.inj htext).1
  | cons n ns => exact hx.notMem (by rw [(List.cons.inj htext).1]; exact List.mem_cons_self)

/-- What is found at the front of a text is found there, whatever follows. -/
theorem digitsHere?_append_stop (front : List Char) (hx : Stops name x)
    (hquote : x = '"' ∨ x = '\'' → ∀ c ∈ back.head?, Text.isDigit c = false) :
    digitsHere? name (front ++ x :: back) = digitsHere? name front := by
  ext digits
  rw [digitsHere?_eq_some, digitsHere?_eq_some]
  constructor
  · rintro ⟨quote, rest, htext, hq, hne, hdigits, hrest⟩
    have hsplit : front ++ x :: back = (name ++ ['=']) ++ quote :: digits ++ rest := by
      simpa using htext
    have hbefore : x ∉ name ++ ['='] := by simp [hx.notMem, hx.ne_equals]
    have hvalue : x ∉ digits := fun h => by simpa [hx.not_digit] using hdigits x h
    rcases List.append_eq_append_iff.mp hsplit with ⟨extra, hfound, hextra⟩ | ⟨extra, hfront, hextra⟩
    · cases extra with
      | nil =>
          obtain rfl : x :: back = rest := hextra
          exact ⟨quote, [], by simpa using hfound.symm, hq, hne, hdigits, by simp⟩
      | cons y extra =>
          -- The match reaches beyond `front`, so `x` is its quote and a digit follows.
          obtain ⟨rfl, rfl⟩ := List.cons.inj hextra
          obtain ⟨-, rfl, rfl⟩ := (List.append_cons_inj_of_notMem hbefore hvalue).mp hfound
          obtain ⟨d, ds, rfl⟩ := List.exists_cons_of_ne_nil hne
          have hd := hquote hq d (by simp)
          simp [hdigits d List.mem_cons_self] at hd
    · subst hextra
      refine ⟨quote, extra, by simpa using hfront, hq, hne, hdigits, ?_⟩
      intro c hc
      exact hrest c (by cases extra <;> simp_all)
  · rintro ⟨quote, rest, rfl, hq, hne, hdigits, hrest⟩
    refine ⟨quote, rest ++ x :: back, by simp, hq, hne, hdigits, ?_⟩
    intro c hc
    cases rest with
    | nil =>
        obtain rfl : x = c := by simpa using hc
        exact hx.not_digit
    | cons d rest => exact hrest c (by simpa using hc)

/-- A search goes on behind a character that stops it. -/
theorem digitsOf?_append_stop (front : List Char) (hx : Stops name x)
    (hquote : x = '"' ∨ x = '\'' → ∀ c ∈ back.head?, Text.isDigit c = false) :
    digitsOf? name (front ++ x :: back) = (digitsOf? name front).or (digitsOf? name back) := by
  induction front with
  | nil => simp [digitsOf?, digitsHere?_stop hx]
  | cons c front ih =>
      have hhere := digitsHere?_append_stop (c :: front) hx hquote
      rw [List.cons_append] at hhere ⊢
      rw [digitsOf?, digitsOf?, hhere, ih]
      cases digitsHere? name (c :: front) <;> rfl

theorem digitsOf?_stop (hx : Stops name x) : digitsOf? name (x :: back) = digitsOf? name back := by
  rw [digitsOf?, digitsHere?_stop hx]

theorem digitsOf?_stops {xs : List Char} (hxs : ∀ x ∈ xs, Stops name x) :
    digitsOf? name (xs ++ back) = digitsOf? name back := by
  induction xs with
  | nil => rfl
  | cons x xs ih =>
      rw [List.forall_mem_cons] at hxs
      rw [List.cons_append, digitsOf?_stop hxs.1, ih hxs.2]

theorem digitsOf?_of_no_equals {text : List Char} (h : '=' ∉ text) : digitsOf? name text = none := by
  rw [digitsOf?_eq_none]
  rintro front digits ⟨quote, rest, rfl, -⟩
  simp at h

/-- The digits at the front of a quoted value. -/
def valueDigits? : List Char → Option (List Char)
  | quote :: value =>
    let digits := value.takeWhile Text.isDigit
    if (quote == '"' || quote == '\'') && !digits.isEmpty then some digits else none
  | [] => none

theorem digitsHere?_name (name back : List Char) :
    digitsHere? name (name ++ '=' :: back) = valueDigits? back := by
  have hafter : Text.after? (name ++ ['=']) (name ++ '=' :: back) = some back := by
    rw [Text.after?_eq_some]
    simp
  simp only [digitsHere?, hafter, Option.bind_eq_bind, Option.bind_some]
  cases back <;> rfl

/-- The first equals sign can only belong to what is before it. -/
theorem digitsHere?_append_equals (back : List Char) (hname : '=' ∉ name) {front : List Char}
    (hfront : '=' ∉ front) (hne : front ≠ name) : digitsHere? name (front ++ '=' :: back) = none := by
  rw [Option.eq_none_iff_forall_ne_some]
  intro digits h
  obtain ⟨quote, rest, htext, -⟩ := digitsHere?_eq_some.mp h
  rw [List.nil_append] at htext
  rcases List.append_eq_append_iff.mp htext with ⟨extra, hextra, hrest⟩ | ⟨extra, hextra, hrest⟩
  · cases extra with
    | nil => exact hne (by simpa using hextra.symm)
    | cons c extra => exact hname (by rw [hextra, ← (List.cons.inj hrest).1]; simp)
  · cases extra with
    | nil => exact hne (by simpa using hextra)
    | cons c extra => exact hfront (by rw [hextra, ← (List.cons.inj hrest).1]; simp)

/-- The first equals sign of a text: the attribute is set there if the text before it ends with the name. -/
theorem digitsOf?_append_equals (hname : '=' ∉ name) {front : List Char} (hfront : '=' ∉ front) :
    digitsOf? name (front ++ '=' :: back) =
      (if name <:+ front then valueDigits? back else none).or (digitsOf? name back) := by
  induction front with
  | nil =>
      rw [List.nil_append, digitsOf?]
      by_cases hempty : name = []
      · subst hempty
        have hhere := digitsHere?_name [] back
        rw [List.nil_append] at hhere
        rw [hhere, if_pos (List.suffix_refl _)]
        cases valueDigits? back <;> rfl
      · have hhere := digitsHere?_append_equals back hname hfront (Ne.symm hempty)
        rw [List.nil_append] at hhere
        rw [hhere, if_neg (by simpa using hempty)]
        rfl
  | cons c front ih =>
      rw [List.mem_cons, not_or] at hfront
      rw [List.cons_append, digitsOf?, ih hfront.2]
      by_cases hsame : c :: front = name
      · have hlonger : ¬ name <:+ front := fun h => by
          have hlength := h.length_le
          rw [← hsame, List.length_cons] at hlength
          omega
        have hhere := digitsHere?_name name back
        rw [← hsame, List.cons_append, hsame] at hhere
        rw [hhere, if_neg hlonger, if_pos (by rw [hsame]), Option.none_or]
        cases valueDigits? back <;> rfl
      · have hcons : '=' ∉ c :: front := by simpa using hfront
        have hhere := digitsHere?_append_equals back hname hcons hsame
        rw [List.cons_append] at hhere
        have hsuffix : name <:+ c :: front ↔ name <:+ front := by
          rw [List.suffix_cons_iff]
          exact or_iff_right (Ne.symm hsame)
        rw [hhere]
        simp only [hsuffix]

end

/-! ## Start tags -/

def isSpace (c : Char) : Bool := c == ' ' || c == '\t' || c == '\n' || c == '\r'

/-- Characters that may stand in a name. -/
def isNameChar (c : Char) : Bool :=
  !(isSpace c || ['=', '"', '\'', '<', '>', '/'].contains c)

def isName (name : List Char) : Bool := !name.isEmpty && name.all isNameChar

/-- An attribute as it is written: space before its name, perhaps around its equals sign, and a value between
quotes. -/
structure Attribute where
  gap : List Char
  name : List Char
  before : List Char
  behind : List Char
  quote : Char
  value : List Char
  gap_ne : gap ≠ []
  spaces : (gap ++ before ++ behind).all isSpace = true
  named : isName name = true
  quoted : quote = '"' ∨ quote = '\''
  closed : quote ∉ value

section
variable {name : List Char} {c : Char}

theorem isName_iff : isName name = true ↔ name ≠ [] ∧ ∀ c ∈ name, isNameChar c = true := by
  simp [isName]

theorem isNameChar_of_mem (hname : isName name = true) (hc : c ∈ name) : isNameChar c = true :=
  (isName_iff.mp hname).2 c hc

theorem equals_notMem (hname : isName name = true) : '=' ∉ name :=
  fun h => absurd (isNameChar_of_mem hname h) (by decide)

theorem Stops.of_not_isNameChar (hname : isName name = true) (hc : isNameChar c = false)
    (hequals : c ≠ '=') (hdigit : Text.isDigit c = false) : Stops name c where
  notMem h := by simp [isNameChar_of_mem hname h] at hc
  ne_equals := hequals
  not_digit := hdigit

theorem isSpace_iff : isSpace c = true ↔ c = ' ' ∨ c = '\t' ∨ c = '\n' ∨ c = '\r' := by
  simp [isSpace, or_assoc]

theorem Stops.of_isSpace (hname : isName name = true) (hc : isSpace c = true) : Stops name c := by
  rcases isSpace_iff.mp hc with rfl | rfl | rfl | rfl <;>
    exact .of_not_isNameChar hname (by decide) (by decide) (by decide)

theorem not_quote_of_isSpace (hc : isSpace c = true) : c ≠ '"' ∧ c ≠ '\'' := by
  rcases isSpace_iff.mp hc with rfl | rfl | rfl | rfl <;> decide

/-- A name is not the end of a text that ends with a space. -/
theorem suffix_append_spaces {front spaces : List Char} (hname : isName name = true)
    (hspaces : ∀ c ∈ spaces, isSpace c = true) :
    name <:+ front ++ spaces ↔ name <:+ front ∧ spaces = [] := by
  rcases List.eq_nil_or_concat spaces with rfl | ⟨spaces, space, rfl⟩
  · simp
  · obtain ⟨start, last, rfl⟩ := (List.eq_nil_or_concat name).resolve_left (isName_iff.mp hname).1
    simp only [List.concat_eq_append, List.append_eq_nil_iff, List.cons_ne_nil, and_false, iff_false]
    rintro ⟨before, hbefore⟩
    rw [← List.append_assoc, ← List.append_assoc] at hbefore
    obtain ⟨-, hlast⟩ := List.append_inj' hbefore rfl
    obtain rfl : last = space := by simpa using hlast
    have hspace := (Stops.of_isSpace hname (hspaces last (by simp))).notMem
    simp at hspace

end

namespace Attribute

def text (a : Attribute) : List Char :=
  a.gap ++ (a.name ++ (a.before ++ '=' :: (a.behind ++ a.quote :: (a.value ++ [a.quote]))))

/-- What a search for a name finds in an attribute: its own digits, if its name ends with that name and there
are no spaces around the equals sign, and otherwise what is in the value. -/
def found? (name : List Char) (a : Attribute) : Option (List Char) :=
  (if name <:+ a.name ∧ a.before = [] ∧ a.behind = [] then valueDigits? (a.quote :: a.value) else none).or
    (digitsOf? name a.value)

def hasNumber (a : Attribute) : Bool := a.value.head?.any Text.isDigit

/-- The attribute has a number, no spaces around its equals sign, and a longer name that ends with the given
one. -/
def IsMistakenFor (name : List Char) (a : Attribute) : Prop :=
  name <:+ a.name ∧ a.name ≠ name ∧ a.before = [] ∧ a.behind = [] ∧ a.hasNumber = true

section
variable {name back : List Char} {x : Char}

theorem isSpace_of_mem (a : Attribute) (hx : x ∈ a.gap ++ a.before ++ a.behind) : isSpace x = true :=
  List.all_eq_true.mp a.spaces x hx

theorem valueDigits?_written (a : Attribute) :
    valueDigits? (a.behind ++ a.quote :: (a.value ++ a.quote :: back)) =
      if a.behind = [] then valueDigits? (a.quote :: a.value) else none := by
  have hdigit : Text.isDigit a.quote = false := by rcases a.quoted with h | h <;> rw [h] <;> decide
  cases hbehind : a.behind with
  | nil =>
      rw [List.nil_append, if_pos rfl, valueDigits?, valueDigits?,
        Outline.takeWhile_append_stop hdigit]
  | cons c behind =>
      have hquote := not_quote_of_isSpace (a.isSpace_of_mem (by simp [hbehind] : c ∈ _))
      simp [valueDigits?, hquote]

theorem digitsOf?_text_append (a : Attribute) (hname : isName name = true)
    (hback : ∀ c ∈ back.head?, Text.isDigit c = false) :
    digitsOf? name (a.text ++ back) = (a.found? name).or (digitsOf? name back) := by
  have hspace (c : Char) (hc : c ∈ a.gap ++ a.before ++ a.behind) : Stops name c :=
    .of_isSpace hname (a.isSpace_of_mem hc)
  have hquote : Stops name a.quote := by
    rcases a.quoted with h | h <;> rw [h] <;>
      exact .of_not_isNameChar hname (by decide) (by decide) (by decide)
  have hequals : '=' ∉ a.name ++ a.before := by
    rw [List.mem_append, not_or]
    exact ⟨equals_notMem a.named, fun h => (hspace _ (by simp [h])).ne_equals rfl⟩
  have hsuffix : name <:+ a.name ++ a.before ↔ name <:+ a.name ∧ a.before = [] :=
    suffix_append_spaces hname fun c hc => a.isSpace_of_mem (by simp [hc])
  have hshape : a.text ++ back = a.gap ++ ((a.name ++ a.before) ++
      '=' :: (a.behind ++ a.quote :: (a.value ++ a.quote :: back))) := by
    simp [text]
  rw [hshape, digitsOf?_stops fun c hc => hspace c (by simp [hc]),
    digitsOf?_append_equals (equals_notMem hname) hequals,
    digitsOf?_stops fun c hc => hspace c (by simp [hc]), digitsOf?_stop hquote,
    digitsOf?_append_stop a.value hquote fun _ => hback, valueDigits?_written, found?, Option.or_assoc]
  congr 1
  simp only [hsuffix, ← ite_and, and_assoc]

theorem valueDigits?_eq_none (a : Attribute) :
    valueDigits? (a.quote :: a.value) = none ↔ a.hasNumber = false := by
  have hquote : (a.quote == '"' || a.quote == '\'') = true := by simpa using a.quoted
  simp only [valueDigits?, hquote, Bool.true_and, hasNumber]
  cases a.value with
  | nil => simp
  | cons c cs => cases hc : Text.isDigit c <;> simp [hc]

theorem found?_eq_none (a : Attribute) (hown : ¬ (a.name = name ∧ a.hasNumber = true)) :
    a.found? name = none ↔ ¬ a.IsMistakenFor name ∧ digitsOf? name a.value = none := by
  rw [found?, Option.or_eq_none_iff, IsMistakenFor]
  refine and_congr_left fun _ => ?_
  split
  · rename_i hwritten
    rw [valueDigits?_eq_none]
    grind
  · grind

end

end Attribute

/-- Markup with a root: what is before its start tag, the tag, and what is behind it. -/
structure Document where
  front : List Char
  attributes : List Attribute
  trail : List Char
  selfClosing : Bool
  content : List Char
  first : ¬ "<svg".toList <:+: front
  spaces : trail.all isSpace = true

namespace Document

/-- The end of the start tag and what is behind it. -/
def rest (d : Document) : List Char :=
  (d.trail ++ if d.selfClosing then ['/', '>'] else ['>']) ++ d.content

def text (d : Document) : List Char :=
  d.front ++ '<' :: ("svg".toList ++ (d.attributes.flatMap Attribute.text ++ d.rest))

def markup (d : Document) : String := String.ofList d.text

/-- The root has the attribute, with a number. -/
def givesOwn (name : List Char) (d : Document) : Bool :=
  d.attributes.any fun a => a.name == name && a.hasNumber

section
variable {name : List Char}

/-- A tag goes on, behind a name or a value, with a space or with its end. -/
theorem exists_stop (d : Document) (hname : isName name = true) (attributes : List Attribute) :
    ∃ x back, attributes.flatMap Attribute.text ++ d.rest = x :: back ∧ Stops name x ∧ x ≠ '"' ∧ x ≠ '\'' := by
  have hspace {x : Char} (hx : isSpace x = true) : Stops name x ∧ x ≠ '"' ∧ x ≠ '\'' :=
    ⟨.of_isSpace hname hx, not_quote_of_isSpace hx⟩
  cases attributes with
  | nil =>
      rw [List.flatMap_nil, List.nil_append, rest]
      cases htrail : d.trail with
      | nil =>
          cases d.selfClosing <;>
            exact ⟨_, _, rfl, .of_not_isNameChar hname (by decide) (by decide) (by decide), by decide⟩
      | cons x trail =>
          exact ⟨x, _, rfl, hspace (List.all_eq_true.mp d.spaces x (by simp [htrail]))⟩
  | cons a attributes =>
      obtain ⟨x, gap, hgap⟩ := List.exists_cons_of_ne_nil a.gap_ne
      rw [List.flatMap_cons, Attribute.text, hgap]
      exact ⟨x, _, rfl, hspace (a.isSpace_of_mem (by simp [hgap]))⟩

theorem digitsOf?_rest (d : Document) (hname : isName name = true) :
    digitsOf? name d.rest = digitsOf? name d.content := by
  apply digitsOf?_stops
  intro x hx
  rw [List.mem_append] at hx
  rcases hx with hx | hx
  · exact .of_isSpace hname (List.all_eq_true.mp d.spaces x hx)
  · have hclosing : x = '/' ∨ x = '>' := by split at hx <;> simp_all
    rcases hclosing with rfl | rfl <;>
      exact .of_not_isNameChar hname (by decide) (by decide) (by decide)

theorem digitsOf?_attributes (d : Document) (hname : isName name = true) (attributes : List Attribute) :
    digitsOf? name (attributes.flatMap Attribute.text ++ d.rest) =
      (attributes.findSome? (Attribute.found? name)).or (digitsOf? name d.content) := by
  induction attributes with
  | nil => exact d.digitsOf?_rest hname
  | cons a attributes ih =>
      obtain ⟨x, back, hnext, hx, -⟩ := d.exists_stop hname attributes
      have hback : ∀ c ∈ (attributes.flatMap Attribute.text ++ d.rest).head?, Text.isDigit c = false := by
        simp [hnext, hx.not_digit]
      rw [List.flatMap_cons, List.append_assoc, a.digitsOf?_text_append hname hback, ih, List.findSome?_cons]
      cases a.found? name <;> rfl

/-- The search goes through the text: what is before the root, its attributes, what is behind its start tag. -/
theorem digitsOf?_text (d : Document) (hname : isName name = true) :
    digitsOf? name d.text = (digitsOf? name d.front).or
      ((d.attributes.findSome? (Attribute.found? name)).or (digitsOf? name d.content)) := by
  have hopen : Stops name '<' := .of_not_isNameChar hname (by decide) (by decide) (by decide)
  obtain ⟨x, back, hnext, hx, hquote⟩ := d.exists_stop hname d.attributes
  have hnone : digitsOf? name "svg".toList = none := digitsOf?_of_no_equals (by decide)
  have htag : digitsOf? name ("svg".toList ++ (d.attributes.flatMap Attribute.text ++ d.rest)) =
      digitsOf? name (d.attributes.flatMap Attribute.text ++ d.rest) := by
    rw [hnext, digitsOf?_append_stop _ hx fun h => (h.elim hquote.1 hquote.2).elim, hnone, Option.none_or,
      digitsOf?_stop hx]
  rw [text, digitsOf?_append_stop _ hopen fun h => absurd h (by decide), htag, d.digitsOf?_attributes hname]

end

end Document

/-- Somewhere in the text the attribute is set to digits. -/
def IsSetIn (name text : List Char) : Prop := ∃ front digits, SetAt name front digits text

theorem digitsOf?_eq_none_iff {name text : List Char} : digitsOf? name text = none ↔ ¬ IsSetIn name text := by
  simp [digitsOf?_eq_none, IsSetIn]

theorem dimension_eq_none {name text : String} :
    dimension name text = .ok none ↔ digitsOf? name.toList text.toList = none := by
  rw [dimension]
  cases digitsOf? name.toList text.toList with
  | none => simp
  | some digits => cases hread : Value.textToInt 10 (String.ofList digits) <;> simp [hread]

/-- A root that does not give a size of its own has the default one only if nothing else in the text is taken
for it: an attribute with a longer name, what a value holds, or what is before the root or in it. -/
theorem dimension_unset_iff {name : String} (hname : isName name.toList = true) (d : Document)
    (hroot : d.givesOwn name.toList = false) :
    (dimension name d.markup = .ok none ↔
      ¬ IsSetIn name.toList d.front ∧
        (∀ a ∈ d.attributes, ¬ a.IsMistakenFor name.toList ∧ ¬ IsSetIn name.toList a.value) ∧
        ¬ IsSetIn name.toList d.content) ∧
      (dimension name d.markup = .ok none →
        ∀ fallback : Int, extent name fallback .null (.markup d.markup) = .ok (.int fallback)) := by
  constructor
  · have hown (a : Attribute) (ha : a ∈ d.attributes) : ¬ (a.name = name.toList ∧ a.hasNumber = true) := by
      simpa using List.any_eq_false.mp hroot a ha
    rw [dimension_eq_none, Document.markup, String.toList_ofList, d.digitsOf?_text hname]
    simp only [Option.or_eq_none_iff, List.findSome?_eq_none_iff, ← digitsOf?_eq_none_iff]
    refine and_congr_right fun _ => and_congr_left fun _ => ?_
    exact forall₂_congr fun a ha => a.found?_eq_none (hown a ha)
  · intro hnone fallback
    simp only [extent, Picture.opening, hnone, Outcome.ok_bind, Outcome.pure_eq_ok]

/-- An attribute as it is mostly written. -/
def Attribute.plain (name value : List Char) (hname : isName name = true) (hvalue : '"' ∉ value) : Attribute where
  gap := [' ']
  name := name
  before := []
  behind := []
  quote := '"'
  value := value
  gap_ne := List.cons_ne_nil _ _
  spaces := rfl
  named := hname
  quoted := .inl rfl
  closed := hvalue

def viewBox : Attribute := .plain "viewBox".toList "0 0 9 9".toList (by decide) (by decide)

def strokeWidth : Attribute := .plain "stroke-width".toList "2".toList (by decide) (by decide)

/-- The markup `<svg viewBox="0 0 9 9" stroke-width="2"/>`. -/
def strokedRoot : Document := ⟨[], [viewBox, strokeWidth], [], true, [], by decide, rfl⟩

/-- The markup `<svg viewBox="0 0 9 9"><rect width="50" height="20"/></svg>`. -/
def sizedChild : Document :=
  ⟨[], [viewBox], [], false, "<rect width=\"50\" height=\"20\"/></svg>".toList, by decide, rfl⟩

/-- The width of a stroke, and the height of what is in the root, are taken for those of the root. -/
theorem strokedRoot_two_wide :
    strokedRoot.givesOwn "width".toList = false ∧ dimension "width" strokedRoot.markup = .ok (some 2) ∧
      sizedChild.givesOwn "height".toList = false ∧ dimension "height" sizedChild.markup = .ok (some 20) :=
  ⟨by decide, rfl, by decide, rfl⟩

/-- The markup `<!--a--><svg viewBox="0 0 9 9" stroke-width ="2" ><rect x="1"/></svg>`. -/
def spacedRoot : Document where
  front := "<!--a-->".toList
  attributes := [viewBox, { strokeWidth with before := [' '], spaces := rfl }]
  trail := [' ']
  selfClosing := false
  content := "<rect x=\"1\"/></svg>".toList
  first := by decide
  spaces := rfl

theorem spacedRoot_default_width :
    spacedRoot.givesOwn "width".toList = false ∧ dimension "width" spacedRoot.markup = .ok none ∧
      extent "width" 800 .null (.markup spacedRoot.markup) = .ok (.int 800) := by
  have hroot : spacedRoot.givesOwn "width".toList = false := by decide
  obtain ⟨hunset, hdefault⟩ := dimension_unset_iff (by decide) spacedRoot hroot
  have hnone : dimension "width" spacedRoot.markup = .ok none := by
    refine hunset.mpr ⟨digitsOf?_eq_none_iff.mp rfl, ?_, digitsOf?_eq_none_iff.mp rfl⟩
    refine List.forall_mem_cons.mpr ⟨⟨fun h => ?_, digitsOf?_eq_none_iff.mp rfl⟩,
      List.forall_mem_singleton.mpr ⟨fun h => ?_, digitsOf?_eq_none_iff.mp rfl⟩⟩
    · exact absurd h.1 (by decide)
    · exact absurd h.2.2.1 (List.cons_ne_nil _ _)
  exact ⟨hroot, hnone, hdefault hnone 800⟩

end Render
end SvgDiagram

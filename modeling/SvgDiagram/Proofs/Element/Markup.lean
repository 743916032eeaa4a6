import Mathlib.Data.List.Infix
import SvgDiagram.Proofs.Element.Typing
import SvgDiagram.Proofs.Text.Strip

/-!
The text of a transform animation, read back. Its attributes are written between double quotes as they are,
and a reader takes a value up to the next quote and puts a character in the place of each reference. Main
statement: the text gives back what was written exactly if no value has a quote or a reference in it, and
values without quotes are told apart by the text.
-/

namespace SvgDiagram
namespace Markup

/-- The character with a code that is written in a base. -/
def charOfDigits? (base : Nat) (cs : List Char) : Option Char :=
  match cs.mapM fun c => (Number.letterDigit? c).filter (· < base) with
  | none | some [] => none
  | some digits =>
    let code := digits.foldl (fun n d => n * base + d) 0
    if 0 < code ∧ code.isValidChar then some (Char.ofNat code) else none

/-- The character that a reference stands for, by what is between its ampersand and its semicolon. -/
def referent? : List Char → Option Char
  | ['l', 't'] => some '<'
  | ['g', 't'] => some '>'
  | ['a', 'm', 'p'] => some '&'
  | ['q', 'u', 'o', 't'] => some '"'
  | ['a', 'p', 'o', 's'] => some (Char.ofNat 39)
  | '#' :: 'x' :: digits => charOfDigits? 16 digits
  | '#' :: digits => charOfDigits? 10 digits
  | _ => none

/-- The reference at the front of a text: the character that it stands for, and how many characters it has
after its ampersand. -/
def reference? : List Char → Option (Char × Nat)
  | '&' :: cs =>
    let name := cs.takeWhile (· != ';')
    if name.length < cs.length then (referent? name).map fun c => (c, name.length + 1) else none
  | _ => none

/-- Puts characters in the place of references, after leaving out some characters. -/
def undoFrom : Nat → List Char → List Char
  | _, [] => []
  | skip + 1, _ :: cs => undoFrom skip cs
  | 0, c :: cs =>
    match reference? (c :: cs) with
    | some (d, length) => d :: undoFrom length cs
    | none => c :: undoFrom 0 cs

def undo (cs : List Char) : List Char := undoFrom 0 cs

/-- Whether no reference begins anywhere in a text. -/
def hasNoReference (cs : List Char) : Bool := cs.tails.all fun rest => (reference? rest).isNone

def hasNoQuote (cs : List Char) : Bool := !cs.contains '"'

abbrev Attribute : Type := List Char × List Char

/-- Attributes that are read from what follows the name of a tag, up to its end: the name of each ends at
an equals sign, and its value at the next quote. Values are changed by `u` after they are read. -/
inductive Reads (u : List Char → List Char) : List Char → List Attribute → Prop
  | tagEnd : Reads u ['/', '>'] []
  | next {name value rest : List Char} {as : List Attribute} (hname : '=' ∉ name)
      (hvalue : '"' ∉ value) (hrest : Reads u rest as) :
      Reads u (' ' :: name ++ '=' :: '"' :: value ++ '"' :: rest) ((name, u value) :: as)

/-- What follows the name of a tag with these attributes. -/
def body : List Attribute → List Char
  | [] => ['/', '>']
  | a :: as => ' ' :: a.1 ++ '=' :: '"' :: a.2 ++ '"' :: body as

theorem length_le_of_reference? {c d : Char} {cs : List Char} {n : Nat}
    (h : reference? (c :: cs) = some (d, n)) : 0 < n ∧ n ≤ cs.length := by
  unfold reference? at h
  split at h
  · rename_i cs' heq
    cases heq
    simp only at h
    split at h
    · rename_i hlt
      simp only [Option.map_eq_some_iff, Prod.mk.injEq] at h
      obtain ⟨-, -, -, rfl⟩ := h
      omega
    · cases h
  · cases h

theorem length_undoFrom (skip : Nat) (cs : List Char) : (undoFrom skip cs).length ≤ cs.length - skip := by
  induction cs generalizing skip with
  | nil => simp [undoFrom]
  | cons c cs ih =>
      cases skip with
      | succ skip => simpa [undoFrom] using ih skip
      | zero =>
          simp only [undoFrom]
          split
          · rename_i d n href
            have hn := length_le_of_reference? href
            have hrest := ih n
            simp only [List.length_cons]
            omega
          · simpa using ih 0

theorem length_undo (cs : List Char) : (undo cs).length ≤ cs.length := by
  simpa [undo] using length_undoFrom 0 cs

/-- A text is left as it is exactly if it has no reference. -/
theorem undo_eq_self_iff (cs : List Char) : undo cs = cs ↔ hasNoReference cs = true := by
  induction cs with
  | nil => decide
  | cons c cs ih =>
      simp only [undo, undoFrom, hasNoReference, List.tails_cons, List.all_cons] at ih ⊢
      cases href : reference? (c :: cs) with
      | none => simpa using ih
      | some found =>
          obtain ⟨d, n⟩ := found
          have hn := length_le_of_reference? href
          have hlength := length_undoFrom n cs
          have hne : d :: undoFrom n cs ≠ c :: cs := by
            intro h
            have := congrArg List.length h
            simp only [List.length_cons] at this
            omega
          simpa using hne

/-- A value ends at the first quote, so a text that is cut at a quote is not shorter. -/
theorem length_le_of_quote {value other rest rest' : List Char} (hvalue : '"' ∉ value)
    (h : value ++ '"' :: rest = other ++ '"' :: rest') : value.length ≤ other.length := by
  by_contra hlt
  have hquote : (value ++ '"' :: rest)[other.length]? = some '"' := by rw [h]; simp
  rw [List.getElem?_append_left (by omega)] at hquote
  exact hvalue (List.mem_of_getElem? hquote)

section

variable {u : List Char → List Char}

/-- What is read of a tag begins with the name and the value of its first attribute. -/
theorem Reads.cons_inv {a : Attribute} {rest : List Char} {bs : List Attribute} (hname : '=' ∉ a.1)
    (h : Reads u (' ' :: a.1 ++ '=' :: '"' :: a.2 ++ '"' :: rest) bs) :
    ∃ value rest' as, '"' ∉ value ∧ value ++ '"' :: rest' = a.2 ++ '"' :: rest ∧ Reads u rest' as ∧
      bs = (a.1, u value) :: as := by
  generalize htext : ' ' :: a.1 ++ '=' :: '"' :: a.2 ++ '"' :: rest = text at h
  cases h with
  | tagEnd => simp at htext
  | @next name value rest' as hname' hvalue hrest =>
      simp only [List.cons_append, List.append_assoc, List.cons.injEq, true_and] at htext
      have hequals : ∀ {cs : List Char}, '=' ∉ cs → ∀ c ∈ cs, (c != '=') = true := by
        intro cs hcs c hc
        simpa using fun heq : c = '=' => hcs (heq ▸ hc)
      obtain ⟨hsame, htail⟩ := Text.run_inj (hequals hname) (hequals hname') (by simp) (by simp) htext
      simp only [List.cons.injEq, true_and] at htail
      exact ⟨value, rest', as, hvalue, htail.symm, hrest, by rw [hsame]⟩

/-- Reading gives back what was written exactly if every value ends where its quote was put and is left as it
is. -/
theorem reads_body_iff (hu : ∀ cs, (u cs).length ≤ cs.length) {as : List Attribute}
    (hnames : ∀ a ∈ as, '=' ∉ a.1) :
    Reads u (body as) as ↔ ∀ a ∈ as, '"' ∉ a.2 ∧ u a.2 = a.2 := by
  induction as with
  | nil => exact ⟨fun _ => by simp, fun _ => .tagEnd⟩
  | cons a as ih =>
      obtain ⟨hname, hrest⟩ := List.forall_mem_cons.mp hnames
      rw [List.forall_mem_cons, ← ih hrest, body]
      constructor
      · intro h
        obtain ⟨value, rest, bs, hvalue, htext, hreads, heq⟩ := h.cons_inv hname
        obtain ⟨ha, rfl⟩ := List.cons.inj heq
        -- What is read ends at the first quote, so it is no longer than what was written; undoing references
        -- makes nothing longer, so it is no shorter either.
        have hshort := length_le_of_quote hvalue htext
        have hlong : a.2.length ≤ value.length := by
          rw [show a.2 = u value from congrArg Prod.snd ha]
          exact hu value
        obtain ⟨rfl, htail⟩ := List.append_inj htext (by omega)
        obtain ⟨-, rfl⟩ := List.cons.inj htail
        exact ⟨⟨hvalue, (congrArg Prod.snd ha).symm⟩, hreads⟩
      · rintro ⟨⟨hvalue, hsame⟩, hreads⟩
        have hread := Reads.next hname hvalue hreads
        rwa [hsame] at hread

/-- A tag is read in one way. -/
theorem Reads.unique {text : List Char} {as bs : List Attribute} (has : Reads u text as)
    (hbs : Reads u text bs) : as = bs := by
  induction has generalizing bs with
  | tagEnd =>
      generalize htext : ['/', '>'] = text at hbs
      cases hbs with
      | tagEnd => rfl
      | next _ _ _ => simp at htext
  | @next name value rest as hname hvalue _ ih =>
      obtain ⟨value', rest', as', hvalue', htext, hrest', rfl⟩ := hbs.cons_inv (a := (name, value)) hname
      have hlength := length_le_of_quote hvalue' htext
      have hlength' := length_le_of_quote hvalue htext.symm
      obtain ⟨rfl, htail⟩ := List.append_inj htext (le_antisymm hlength hlength')
      obtain ⟨-, rfl⟩ := List.cons.inj htail
      rw [ih hrest']

/-- Attributes without quotes in their values are known by the tag. -/
theorem body_inj {as bs : List Attribute} (has : ∀ a ∈ as, '=' ∉ a.1 ∧ '"' ∉ a.2)
    (hbs : ∀ b ∈ bs, '=' ∉ b.1 ∧ '"' ∉ b.2) (h : body as = body bs) : as = bs := by
  have hreads : ∀ {cs : List Attribute}, (∀ c ∈ cs, '=' ∉ c.1 ∧ '"' ∉ c.2) → Reads id (body cs) cs := by
    intro cs hcs
    refine (reads_body_iff (fun _ => le_rfl) fun c hc => (hcs c hc).1).mpr fun c hc => ?_
    exact ⟨(hcs c hc).2, rfl⟩
  have has := hreads has
  rw [h] at has
  exact has.unique (hreads hbs)

end

end Markup

namespace TransformAnimation

open SvgDiagram.Field (fits)
open Markup (Reads)

/-- The text of a field, empty if it is left out. -/
def fieldText (t : Table) (names : List String) : String :=
  ((Field.find? t names).bind Field.asText?).getD ""

/-- The attributes that may be left out, and the spellings of their fields. -/
def optionalFields : List (String × List String) :=
  [("values", ["values"]), ("from", ["from", "from_value"]), ("to", ["to", "to_value"]),
    ("repeatCount", ["repeatCount", "repeat_count"]), ("additive", ["additive"])]

/-- The attributes that a transform animation is given with. -/
def declared (t : Table) : List (String × String) :=
  [("attributeName", "transform"), ("type", fieldText t ["type"]), ("dur", fieldText t ["dur"])] ++
    (optionalFields.map fun f => (f.1, fieldText t f.2)).filter fun e => !e.2.isEmpty

/-- An attribute as it is read. -/
def spelled (e : String × String) : Markup.Attribute := (e.1.toList, e.2.toList)

/-- A text is the tag of a transform animation, and these are its attributes. -/
def ReadsTag (u : List Char → List Char) (text : String) (attributes : List (String × String)) : Prop :=
  ∃ rest, text.toList = "<animateTransform".toList ++ rest ∧
    Reads u rest (attributes.map spelled)

section

variable {t : Table} {names : List String}

theorem text_eq_fieldText {s : String} (h : Field.text t names = .ok s) : s = fieldText t names := by
  rw [fieldText, Field.need_eq_ok.mp h, Option.getD_some]

/-- The text of a field, if it is not empty. -/
def words (t : Table) (names : List String) : Option String :=
  (some (fieldText t names)).filter fun s => !s.isEmpty

theorem words?_eq_words {o : Option String} (h : Field.words? t names = .ok o) : o = words t names := by
  simp only [Field.words?, Outcome.bind_eq_ok, Outcome.pure_eq_ok, Except.ok.injEq] at h
  obtain ⟨given, hgiven, rfl⟩ := h
  rw [words, fieldText]
  obtain ⟨rfl, hfound | hfound⟩ | ⟨v, s, hfound, hs, rfl⟩ := Field.get?_cases hgiven
  · rw [hfound]
    rfl
  · rw [hfound]
    rfl
  · rw [hfound, Option.bind_some, hs, Option.getD_some]

theorem filterMap_words (fields : List (String × List String)) :
    ((fields.map fun f => (f.1, words t f.2)).filterMap fun e => e.2.map fun value => (e.1, value)) =
      (fields.map fun f => (f.1, fieldText t f.2)).filter fun e => !e.2.isEmpty := by
  induction fields with
  | nil => rfl
  | cons f fields ih =>
      rw [List.map_cons, List.map_cons, List.filterMap_cons, List.filter_cons, ih]
      cases hempty : (fieldText t f.2).isEmpty <;> simp [words, Option.filter, hempty]

theorem written_eq_declared {a : TransformAnimation} (h : ofTable t = .ok a) : a.written = declared t := by
  simp only [ofTable, Outcome.bind_eq_ok, Outcome.pure_eq_ok] at h
  obtain ⟨kind, hkind, duration, hduration, values, hvalues, source, hsource, target, htarget,
    repetition, hrepetition, additive, hadditive, ⟨⟩⟩ := h
  rw [text_eq_fieldText hkind, text_eq_fieldText hduration, words?_eq_words hvalues,
    words?_eq_words hsource, words?_eq_words htarget, words?_eq_words hrepetition,
    words?_eq_words hadditive, declared, ← filterMap_words]
  rfl

end

theorem body_spelled {attributes : List (String × String)} (hne : attributes ≠ []) :
    Markup.body (attributes.map spelled) =
      ' ' :: [' '].intercalate (attributes.map fun e => (attributeText e.1 e.2).toList) ++ ['/', '>'] := by
  induction attributes with
  | nil => exact absurd rfl hne
  | cons e rest ih =>
      cases rest with
      | nil => simp [Markup.body, spelled, attributeText]
      | cons e' rest =>
          rw [List.map_cons, Markup.body, ih (by simp)]
          simp [spelled, attributeText, List.intercalate_cons_cons]

theorem toList_markup (a : TransformAnimation) :
    a.markup.toList = "<animateTransform".toList ++ Markup.body (a.written.map spelled) := by
  have hne : a.written ≠ [] := by simp [written]
  have hopen : "<animateTransform ".toList = "<animateTransform".toList ++ [' '] := by simp
  have hblank : " ".toList = [' '] := by simp
  have hclose : "/>".toList = ['/', '>'] := by simp
  rw [body_spelled hne]
  unfold markup
  simp only [String.toList_append, String.toList_intercalate, List.map_map, Function.comp_def,
    hopen, hblank, hclose, List.append_assoc, List.cons_append, List.nil_append]

theorem readsTag_markup_iff (u : List Char → List Char) (a : TransformAnimation)
    (attributes : List (String × String)) :
    ReadsTag u a.markup attributes ↔
      Reads u (Markup.body (a.written.map spelled)) (attributes.map spelled) := by
  constructor
  · rintro ⟨rest, htext, hreads⟩
    rw [toList_markup] at htext
    rwa [List.append_cancel_left htext]
  · exact fun h => ⟨_, toList_markup a, h⟩

theorem equals_notMem_optionalFields : (optionalFields.all fun f => !f.1.toList.contains '=') = true := by
  decide

theorem equals_notMem_declared {t : Table} : ∀ e ∈ declared t, '=' ∉ e.1.toList := by
  simp only [declared, List.forall_mem_append, List.forall_mem_cons]
  refine ⟨⟨by simp, by simp, by simp, by simp⟩, ?_⟩
  intro e he
  obtain ⟨f, hf, rfl⟩ := List.mem_map.mp (List.mem_filter.mp he).1
  simpa using List.all_eq_true.mp equals_notMem_optionalFields f hf

/-- The tag gives back what was declared exactly if every value is plain. -/
theorem readsTag_declared_iff {t : Table} {a : TransformAnimation} (h : ofTable t = .ok a) :
    ReadsTag Markup.undo a.markup (declared t) ↔
      ∀ e ∈ declared t, Markup.hasNoQuote e.2.toList = true ∧ Markup.hasNoReference e.2.toList = true := by
  have hnames : ∀ b ∈ (declared t).map spelled, '=' ∉ b.1 :=
    List.forall_mem_map.mpr equals_notMem_declared
  rw [readsTag_markup_iff, written_eq_declared h, Markup.reads_body_iff Markup.length_undo hnames,
    List.forall_mem_map]
  simp only [spelled, Markup.undo_eq_self_iff, Markup.hasNoQuote, Bool.not_eq_true', List.contains_eq_mem,
    decide_eq_false_iff_not]

theorem spelled_injective : Function.Injective spelled := by
  rintro ⟨name, value⟩ ⟨name', value'⟩ h
  obtain ⟨hname, hvalue⟩ := Prod.mk.inj h
  exact Prod.ext (String.toList_inj.mp hname) (String.toList_inj.mp hvalue)

section

variable {t t' : Table}

/-- Declarations without quotes are known by the tag. -/
theorem declared_eq_of_markup {a a' : TransformAnimation} (ha : ofTable t = .ok a)
    (ha' : ofTable t' = .ok a') (hquote : ∀ e ∈ declared t, Markup.hasNoQuote e.2.toList = true)
    (hquote' : ∀ e ∈ declared t', Markup.hasNoQuote e.2.toList = true) (h : a.markup = a'.markup) :
    declared t = declared t' := by
  have hplain : ∀ {u : Table}, (∀ e ∈ declared u, Markup.hasNoQuote e.2.toList = true) →
      ∀ b ∈ (declared u).map spelled, '=' ∉ b.1 ∧ '"' ∉ b.2 := by
    intro u hu
    refine List.forall_mem_map.mpr fun e he => ⟨equals_notMem_declared e he, ?_⟩
    simpa [spelled, Markup.hasNoQuote] using hu e he
  have hbody := congrArg String.toList h
  rw [toList_markup, toList_markup, written_eq_declared ha, written_eq_declared ha'] at hbody
  have hspelled := Markup.body_inj (hplain hquote) (hplain hquote') (List.append_cancel_left hbody)
  exact spelled_injective.list_map hspelled

/-- A value that is not empty is declared under the name of its attribute. -/
theorem mem_optional_iff {f : String × List String} (hf : f ∈ optionalFields) {s : String}
    (hs : s.isEmpty = false) :
    (f.1, s) ∈ ((optionalFields.map fun f => (f.1, fieldText t f.2)).filter fun e => !e.2.isEmpty) ↔
      fieldText t f.2 = s := by
  have hnames : ∀ f ∈ optionalFields, ∀ g ∈ optionalFields, g.1 = f.1 → g = f := by decide
  simp only [List.mem_filter, List.mem_map, Prod.mk.injEq, hs, Bool.not_false, and_true]
  constructor
  · rintro ⟨g, hg, hname, rfl⟩
    rw [hnames f hf g hg hname]
  · exact fun h => ⟨f, hf, rfl, h⟩

/-- All fields of a transform animation, by their spellings. -/
def fieldNames : List (List String) := ["type"] :: ["dur"] :: optionalFields.map Prod.snd

theorem declared_eq_iff :
    declared t = declared t' ↔ ∀ names ∈ fieldNames, fieldText t names = fieldText t' names := by
  constructor
  · intro h
    simp only [declared, List.cons_append, List.nil_append, List.cons.injEq, Prod.mk.injEq, true_and] at h
    obtain ⟨hkind, hduration, hrest⟩ := h
    simp only [fieldNames, List.forall_mem_cons, List.forall_mem_map]
    refine ⟨hkind, hduration, fun f hf => ?_⟩
    cases hempty : (fieldText t f.2).isEmpty with
    | false => exact ((mem_optional_iff hf hempty).mp (hrest ▸ (mem_optional_iff hf hempty).mpr rfl)).symm
    | true =>
        cases hempty' : (fieldText t' f.2).isEmpty with
        | false => exact (mem_optional_iff hf hempty').mp (hrest ▸ (mem_optional_iff hf hempty').mpr rfl)
        | true => rw [String.isEmpty_iff.mp hempty, String.isEmpty_iff.mp hempty']
  · intro h
    simp only [fieldNames, List.forall_mem_cons, List.forall_mem_map] at h
    obtain ⟨hkind, hduration, hrest⟩ := h
    rw [declared, declared, hkind, hduration,
      List.map_congr_left fun f hf => by rw [hrest f hf]]

end

/-- The tag of a transform animation gives back its fields exactly if none of them has a quote or a reference
in it. Where none has a quote, two animations have one tag exactly if they agree in all fields. -/
theorem markup_faithful_iff {t : Table} (h : fits TransformAnimation.rules t = true) :
    ∃ a, ofTable t = .ok a ∧
      (ReadsTag Markup.undo a.markup (declared t) ↔ ∀ e ∈ declared t,
        Markup.hasNoQuote e.2.toList = true ∧ Markup.hasNoReference e.2.toList = true) ∧
      ∀ t' a', ofTable t' = .ok a' → (∀ e ∈ declared t, Markup.hasNoQuote e.2.toList = true) →
        (∀ e ∈ declared t', Markup.hasNoQuote e.2.toList = true) →
        (a.markup = a'.markup ↔ ∀ names ∈ fieldNames, fieldText t names = fieldText t' names) := by
  obtain ⟨a, ha⟩ := checks_ofTable.exists_ok h
  refine ⟨a, ha, readsTag_declared_iff ha, fun t' a' ha' hquote hquote' => ?_⟩
  rw [← declared_eq_iff]
  constructor
  · exact declared_eq_of_markup ha ha' hquote hquote'
  · intro heq
    rw [← String.toList_inj, toList_markup, toList_markup, written_eq_declared ha,
      written_eq_declared ha', heq]

def ofTexts (fields : List (String × String)) : Table :=
  fields.map fun f => (.string f.1, .string f.2)

/-- A turn with an ampersand that begins no reference, and with an empty field. -/
def plainTurn : Table :=
  ofTexts [("type", "rotate"), ("dur", "1s"), ("from_value", "0 & 1"), ("to", ""), ("additive", "sum")]

theorem plainTurn_read_back :
    fits TransformAnimation.rules plainTurn = true ∧
      ∃ a, ofTable plainTurn = .ok a ∧
        ReadsTag Markup.undo a.markup [("attributeName", "transform"), ("type", "rotate"), ("dur", "1s"),
          ("from", "0 & 1"), ("additive", "sum")] := by
  have hfits : fits TransformAnimation.rules plainTurn = true := by decide +kernel
  have hdeclared : declared plainTurn = [("attributeName", "transform"), ("type", "rotate"),
      ("dur", "1s"), ("from", "0 & 1"), ("additive", "sum")] := by decide +kernel
  obtain ⟨a, ha, hreads, -⟩ := markup_faithful_iff hfits
  exact ⟨hfits, a, ha, hdeclared ▸ hreads.mpr (by decide +kernel)⟩

/-- A turn with quotes in a value, which end one attribute and begin another. -/
def quotedTurn : Table :=
  ofTexts [("type", "rotate"), ("dur", "1s"), ("values", "x\" from=\"y")]

def unquotedTurn : Table :=
  ofTexts [("type", "rotate"), ("dur", "1s"), ("values", "x"), ("from", "y")]

/-- A turn with a reference in a value. -/
def referringTurn : Table :=
  ofTexts [("type", "rotate"), ("dur", "1s"), ("values", "a&amp;b")]

/-- Two turns that differ have one tag, and neither quotes nor references are read back. -/
theorem quotes_and_references_misread :
    ∃ a b c, ofTable quotedTurn = .ok a ∧ ofTable unquotedTurn = .ok b ∧ ofTable referringTurn = .ok c ∧
      a.markup = b.markup ∧ fieldText quotedTurn ["values"] ≠ fieldText unquotedTurn ["values"] ∧
      ¬ ReadsTag Markup.undo a.markup (declared quotedTurn) ∧
      ¬ ReadsTag Markup.undo c.markup (declared referringTurn) := by
  refine ⟨_, _, _, rfl, rfl, rfl, by decide +kernel, by decide +kernel, ?_, ?_⟩
  · rw [readsTag_declared_iff rfl]
    decide +kernel
  · rw [readsTag_declared_iff rfl]
    decide +kernel

end TransformAnimation
end SvgDiagram

import Mathlib.Data.List.Forall2
import SvgDiagram.Element.Basic
import SvgDiagram.Proofs.Element.Field

/-!
Fields with two spellings. Two elements that differ only in how their fields are spelled, at any depth, are
read as the same element. A reader asks for a field under all its spellings, and of a table that has only
one of them it gets the same value under either; every other name means the same in both tables.
-/

namespace SvgDiagram

/-- What entries can be spelled with: the fields that have two spellings, and the lists whose items have
spellings of their own. -/
structure Vocabulary where
  fields : List (String × String)
  lists : List String

namespace Vocabulary

@[simp] def strokeFields : List (String × String) :=
  [("stroke-dasharray", "stroke_dasharray"), ("stroke-linecap", "stroke_linecap"),
    ("stroke-linejoin", "stroke_linejoin"), ("fill-opacity", "fill_opacity"),
    ("stroke-opacity", "stroke_opacity")]

@[simp] def areaFields : List (String × String) := ("stroke-width", "stroke_width") :: strokeFields

@[simp] def labelFields : List (String × String) :=
  [("font-size", "font_size"), ("text-anchor", "text_anchor"), ("font-family", "font_family"),
    ("font-weight", "font_weight"), ("font-style", "font_style"),
    ("dominant-baseline", "dominant_baseline"), ("background-padding", "background_padding")]

@[simp] def area : Vocabulary := ⟨areaFields, ["animations"]⟩

/-- Lines and outlines spell the width of their stroke in one way only. -/
@[simp] def line : Vocabulary := ⟨strokeFields, ["animations"]⟩

@[simp] def label : Vocabulary := ⟨areaFields ++ labelFields, ["animations"]⟩

/-- The ends of a connection are spelled in one way only. -/
@[simp] def link : Vocabulary := ⟨("marker-end", "marker_end") :: areaFields, ["animations"]⟩

def group : Vocabulary := ⟨[], ["elements", "transform_animations"]⟩

/-- The vocabulary of an element, by the name of its type. -/
def ofKind : String → Vocabulary
  | "circle" | "ellipse" | "rectangle" => area
  | "line" | "path" => line
  | "text" => label
  | "connection" => link
  | "group" => group
  | _ => ⟨[], []⟩

@[simp] def animation : Vocabulary := ⟨[("repeatCount", "repeat_count")], []⟩

@[simp] def transformAnimation : Vocabulary :=
  ⟨[("from", "from_value"), ("to", "to_value"), ("repeatCount", "repeat_count")], []⟩

/-- A scene has elements, and nothing to spell. -/
def scene : Vocabulary := ⟨[], ["elements"]⟩

/-- The names under which two tables can differ. -/
def names (voc : Vocabulary) : List String := voc.fields.flatMap (fun f => [f.1, f.2]) ++ voc.lists

/-- Names that mean the same in every vocabulary: those that positions and ends of connections are found
with. -/
def fixed : List String :=
  ["type", "id", "from", "to", "segments", "d", "x", "y", "cx", "cy", "x1", "y1", "x2", "y2", "width",
    "height", "r", "rx", "ry"]

/-- The names are all the spellings of one field, and of nothing else. -/
@[simp] def reads (voc : Vocabulary) (names : List String) : Bool :=
  voc.fields.all (fun f => names.contains f.1 == names.contains f.2) &&
    !voc.lists.any names.contains &&
    match names with
    | [_] => true
    | [first, second] => voc.fields.contains (first, second)
    | _ => false

/-- No field stands in the table in both spellings. -/
def OneSpelling (voc : Vocabulary) (t : Table) : Prop :=
  ∀ f ∈ voc.fields, Table.field? t f.1 = none ∨ Table.field? t f.2 = none

instance (voc : Vocabulary) (t : Table) : Decidable (voc.OneSpelling t) :=
  inferInstanceAs (Decidable (∀ f ∈ voc.fields, Table.field? t f.1 = none ∨ Table.field? t f.2 = none))

end Vocabulary

/-- An entry is kept, or its field is spelled in the other way, or items of its list are respelled. -/
inductive EntryRespelled (voc : Vocabulary) (R : String → Value → Value → Prop) :
    Value × Value → Value × Value → Prop
  | kept (e : Value × Value) : EntryRespelled voc R e e
  | respelled {name other : String} (v : Value)
      (field : (name, other) ∈ voc.fields ∨ (other, name) ∈ voc.fields) :
      EntryRespelled voc R (.string name, v) (.string other, v)
  | items {name : String} {vs vs' : List Value} (list : name ∈ voc.lists)
      (items : List.Forall₂ (R name) vs vs') :
      EntryRespelled voc R (.string name, .list vs) (.string name, .list vs')

structure TableRespelled (voc : Vocabulary) (R : String → Value → Value → Prop) (t t' : Table) :
    Prop where
  once : voc.OneSpelling t
  once' : voc.OneSpelling t'
  entries : List.Forall₂ (EntryRespelled voc R) t t'

inductive AnimationRespelled (voc : Vocabulary) : Value → Value → Prop
  | same (v : Value) : AnimationRespelled voc v v
  | table {t t' : Table} (h : TableRespelled voc (fun _ => Eq) t t') :
      AnimationRespelled voc (.table t) (.table t')

def ItemRespelled (R : Value → Value → Prop) : String → Value → Value → Prop
  | "animations" => AnimationRespelled .animation
  | "transform_animations" => AnimationRespelled .transformAnimation
  | _ => R

/-- An element is spelled in another way, with the vocabulary of its type. The relation is the one of the
elements in it. -/
inductive ElementRespelled (R : Value → Value → Prop) : Value → Value → Prop
  | same (v : Value) : ElementRespelled R v v
  | table {t t' : Table} {kind : String} (type : Table.field? t "type" = some (.string kind))
      (h : TableRespelled (.ofKind kind) (ItemRespelled R) t t') :
      ElementRespelled R (.table t) (.table t')

/-- Elements that differ only in spellings, down to a depth of groups in groups. -/
def Respelled : Nat → Value → Value → Prop
  | 0 => ElementRespelled Eq
  | depth + 1 => ElementRespelled (Respelled depth)

/-- The first value under any of some names. -/
def Table.first? (names : List String) (t : Table) : Option Value :=
  (t.find? fun e => names.any e.1.isText).map Prod.snd

theorem Table.first?_cons (names : List String) (key v : Value) (t : Table) :
    Table.first? names ((key, v) :: t) =
      if names.any key.isText then some v else Table.first? names t := by
  simp only [first?, List.find?_cons]
  cases names.any key.isText <;> rfl

theorem Table.first?_single (name : String) (t : Table) :
    Table.first? [name] t = Table.field? t name := by
  simp only [first?, field?, get?, Value.sameKey_eq_isText, List.any_cons, List.any_nil, Bool.or_false]

/-- With one spelling in the table, it does not matter which is looked for first. -/
theorem Table.first?_pair {first second : String} {t : Table}
    (h : Table.field? t first = none ∨ Table.field? t second = none) :
    Table.first? [first, second] t = (Table.field? t first).or (Table.field? t second) := by
  induction t with
  | nil => rfl
  | cons e t ih =>
      obtain ⟨key, v⟩ := e
      simp only [field?_cons, first?_cons, Value.sameKey_eq_isText, List.any_cons, List.any_nil,
        Bool.or_false] at h ⊢
      cases hfirst : key.isText first <;> cases hsecond : key.isText second <;> simp_all

section
variable {voc : Vocabulary} {R : String → Value → Value → Prop} {t t' : Table}

theorem Vocabulary.mem_names {name : String} :
    name ∈ voc.names ↔ (∃ f ∈ voc.fields, name = f.1 ∨ name = f.2) ∨ name ∈ voc.lists := by
  simp only [names, List.mem_append, List.mem_flatMap, List.mem_cons, List.not_mem_nil, or_false]

theorem Vocabulary.reads_single {name : String} (h : name ∉ voc.names) : voc.reads [name] = true := by
  simp only [mem_names, not_or, not_exists, not_and] at h
  obtain ⟨hfields, hlists⟩ := h
  simp only [reads, Bool.and_eq_true, List.all_eq_true, beq_iff_eq, Bool.not_eq_true',
    List.any_eq_false, List.contains_iff_mem, List.mem_singleton, and_true]
  refine ⟨fun f hf => ?_, fun list hlist heq => hlists (heq ▸ hlist)⟩
  obtain ⟨hfirst, hsecond⟩ := hfields f hf
  simp [Ne.symm hfirst, Ne.symm hsecond]

theorem Vocabulary.not_mem_names_of_fixed (kind : String) :
    ∀ name ∈ fixed, name ∉ (ofKind kind).names := by
  unfold ofKind
  split <;> decide +kernel

theorem Vocabulary.reads_fixed (kind : String) {name : String} (h : name ∈ fixed) :
    (ofKind kind).reads [name] = true :=
  reads_single (not_mem_names_of_fixed kind name h)

theorem Value.any_isText (names : List String) (name : String) :
    names.any (Value.string name).isText = names.contains name :=
  List.contains_eq_any_beq.symm

/-- An entry is kept, or both its names are in the vocabulary. -/
theorem EntryRespelled.eq_or {e e' : Value × Value} (h : EntryRespelled voc R e e') :
    e' = e ∨ ∃ name name' v v', name ∈ voc.names ∧ name' ∈ voc.names ∧ e = (.string name, v) ∧
      e' = (.string name', v') := by
  cases h with
  | kept => exact .inl rfl
  | respelled v field =>
      refine .inr ⟨_, _, v, v, ?_, ?_, rfl, rfl⟩ <;>
        · rw [Vocabulary.mem_names]
          obtain hf | hf := field
          · exact .inl ⟨_, hf, by simp⟩
          · exact .inl ⟨_, hf, by simp⟩
  | items list _ =>
      have hname := Vocabulary.mem_names.mpr (.inr list)
      exact .inr ⟨_, _, _, _, hname, hname, rfl, rfl⟩

/-- Where a reader looks, an entry stays where it is found, and keeps its value. -/
theorem EntryRespelled.found {names : List String} (hnames : voc.reads names = true)
    {e e' : Value × Value} (h : EntryRespelled voc R e e') :
    names.any e'.1.isText = names.any e.1.isText ∧ (names.any e.1.isText = true → e'.2 = e.2) := by
  simp only [Vocabulary.reads, Bool.and_eq_true, List.all_eq_true, beq_iff_eq, Bool.not_eq_true',
    List.any_eq_false] at hnames
  obtain ⟨⟨hfields, hlists⟩, -⟩ := hnames
  cases h with
  | kept => exact ⟨rfl, fun _ => rfl⟩
  | respelled v field =>
      refine ⟨?_, fun _ => rfl⟩
      rw [Value.any_isText, Value.any_isText]
      obtain hf | hf := field
      · exact (hfields _ hf).symm
      · exact hfields _ hf
  | items list _ =>
      refine ⟨rfl, fun hfound => ?_⟩
      rw [Value.any_isText] at hfound
      exact absurd hfound (hlists _ list)

theorem TableRespelled.first?_eq (h : TableRespelled voc R t t') {names : List String}
    (hnames : voc.reads names = true) : Table.first? names t' = Table.first? names t := by
  obtain ⟨-, -, entries⟩ := h
  induction entries with
  | nil => rfl
  | cons he _ ih =>
      obtain ⟨hfound, hvalue⟩ := he.found hnames
      rw [Table.first?_cons, Table.first?_cons, hfound, ih]
      split
      · rename_i hin
        rw [hvalue hin]
      · rfl

/-- A field is found with the same value, however it is spelled. -/
theorem TableRespelled.find?_eq (h : TableRespelled voc R t t') {names : List String}
    (hnames : voc.reads names = true) : Field.find? t' names = Field.find? t names := by
  have hfirst := h.first?_eq hnames
  match names, hnames with
  | [name], _ =>
      rwa [Field.find?_single, Field.find?_single, ← Table.first?_single, ← Table.first?_single]
  | [first, second], hnames =>
      have hfield : (first, second) ∈ voc.fields := by
        simp only [Vocabulary.reads, Bool.and_eq_true, List.contains_iff_mem] at hnames
        exact hnames.2
      rwa [Field.find?_pair, Field.find?_pair, ← Table.first?_pair (h.once _ hfield),
        ← Table.first?_pair (h.once' _ hfield)]
  | [], hnames => simp [Vocabulary.reads] at hnames
  | _ :: _ :: _ :: _, hnames => simp [Vocabulary.reads] at hnames

section
variable {α : Type} {convert : Value → Option α}

theorem TableRespelled.need_eq (h : TableRespelled voc R t t') {names : List String}
    (hnames : voc.reads names = true) : Field.need convert t' names = Field.need convert t names := by
  rw [Field.need, Field.need, h.find?_eq hnames]

theorem TableRespelled.getOr_eq (h : TableRespelled voc R t t') {names : List String}
    (hnames : voc.reads names = true) (default : α) :
    Field.getOr convert t' names default = Field.getOr convert t names default := by
  rw [Field.getOr, Field.getOr, h.find?_eq hnames]

theorem TableRespelled.get?_eq (h : TableRespelled voc R t t') {names : List String}
    (hnames : voc.reads names = true) : Field.get? convert t' names = Field.get? convert t names := by
  rw [Field.get?, Field.get?, h.find?_eq hnames]

end

theorem TableRespelled.field?_eq (h : TableRespelled voc R t t') {name : String}
    (hname : voc.reads [name] = true) : Table.field? t' name = Table.field? t name := by
  rw [← Field.find?_single, ← Field.find?_single, h.find?_eq hname]

theorem forall₂_setField (h : List.Forall₂ (EntryRespelled voc R) t t') {name : String}
    (hname : name ∉ voc.names) (v : Value) :
    List.Forall₂ (EntryRespelled voc R) (Table.setField t name v) (Table.setField t' name v) := by
  have hne {own : String} (hown : own ∈ voc.names) :
      (Value.string own).sameKey (.string name) = false := by
    rw [Value.sameKey_eq_isText]
    exact beq_eq_false_iff_ne.mpr fun heq => hname (heq ▸ hown)
  induction h with
  | nil => exact .cons (.kept _) .nil
  | cons he hrest ih =>
      simp only [Table.setField, Table.set] at ih ⊢
      obtain rfl | ⟨own, own', w, w', hown, hown', rfl, rfl⟩ := he.eq_or
      · split
        · exact .cons (.kept _) hrest
        · exact .cons he ih
      · simp only [hne hown, hne hown', Bool.false_eq_true, ite_false]
        exact .cons he ih

theorem Vocabulary.OneSpelling.of_field? {u : Table} (h : voc.OneSpelling t)
    (hu : ∀ name ∈ voc.names, Table.field? u name = Table.field? t name) : voc.OneSpelling u := by
  intro f hf
  have hfirst : f.1 ∈ voc.names := Vocabulary.mem_names.mpr (.inl ⟨f, hf, .inl rfl⟩)
  have hsecond : f.2 ∈ voc.names := Vocabulary.mem_names.mpr (.inl ⟨f, hf, .inr rfl⟩)
  rw [hu _ hfirst, hu _ hsecond]
  exact h f hf

theorem TableRespelled.setField (h : TableRespelled voc R t t') {name : String}
    (hname : name ∉ voc.names) (v : Value) :
    TableRespelled voc R (Table.setField t name v) (Table.setField t' name v) := by
  have hkept (u : Table) : ∀ own ∈ voc.names,
      Table.field? (Table.setField u name v) own = Table.field? u own := by
    intro own hown
    have hne : name ≠ own := fun heq => hname (heq ▸ hown)
    rw [Table.field?_setField, if_neg hne]
  exact ⟨h.once.of_field? (hkept t), h.once'.of_field? (hkept t'),
    forall₂_setField h.entries hname v⟩

/-- A list is kept, or its items are respelled. -/
theorem TableRespelled.list_cases (h : TableRespelled voc R t t') (name : String)
    (hname : ∀ f ∈ voc.fields, f.1 ≠ name ∧ f.2 ≠ name) :
    Table.field? t' name = Table.field? t name ∨
      ∃ vs vs', Table.field? t name = some (.list vs) ∧ Table.field? t' name = some (.list vs') ∧
        List.Forall₂ (R name) vs vs' := by
  obtain ⟨-, -, entries⟩ := h
  induction entries with
  | nil => exact .inl rfl
  | @cons e e' t t' he _ ih =>
      cases he with
      | kept =>
          obtain ⟨key, v⟩ := e
          simp only [Table.field?_cons]
          split
          · exact .inl rfl
          · exact ih
      | respelled v field =>
          rename_i own other
          have hne : own ≠ name ∧ other ≠ name := by
            obtain hf | hf := field
            · exact hname _ hf
            · exact (hname _ hf).symm
          have hown : (Value.string own).isText name = false := beq_eq_false_iff_ne.mpr hne.1
          have hother : (Value.string other).isText name = false := beq_eq_false_iff_ne.mpr hne.2
          simpa only [Table.field?_cons, Value.sameKey_eq_isText, hown, hother, Bool.false_eq_true,
            ite_false] using ih
      | items list items =>
          simp only [Table.field?_cons]
          split
          · rename_i hsame
            cases (Value.sameKey_string _ name).mp hsame
            exact .inr ⟨_, _, rfl, rfl, items⟩
          · exact ih

/-- Tables in a list are read as before, if each of them is. -/
theorem TableRespelled.tables_eq {α : Type} {read : Table → Except Fault α} {name : String}
    (hread : ∀ v v', R name v v' →
      (Field.accepted (Field.asTable? v') >>= read) = (Field.accepted (Field.asTable? v) >>= read))
    (h : TableRespelled voc R t t') (hname : ∀ f ∈ voc.fields, f.1 ≠ name ∧ f.2 ≠ name) :
    Field.tables t' [name] read = Field.tables t [name] read := by
  simp only [Field.tables, Field.getOr, Field.find?_single]
  obtain heq | ⟨vs, vs', hvs, hvs', hitems⟩ := h.list_cases name hname
  · rw [heq]
  · rw [hvs, hvs']
    exact Outcome.mapM_congr (hitems.imp hread)

theorem TableRespelled.animation_eq (h : TableRespelled .animation R t t') :
    Animation.ofTable t' = Animation.ofTable t := by
  simp (disch := simp) only [Animation.ofTable, Field.text, Field.text?, h.need_eq, h.get?_eq]

theorem TableRespelled.transformAnimation_eq (h : TableRespelled .transformAnimation R t t') :
    TransformAnimation.ofTable t' = TransformAnimation.ofTable t := by
  simp (disch := simp) only [TransformAnimation.ofTable, Field.text, Field.words?, Field.text?,
    h.need_eq, h.get?_eq]

/-- Entries of a list of animations are read as before. -/
theorem AnimationRespelled.read_eq {α : Type} {read : Table → Except Fault α}
    (hread : ∀ {t t'}, TableRespelled voc (fun _ => Eq) t t' → read t' = read t) {v v' : Value}
    (h : AnimationRespelled voc v v') :
    (Field.accepted (Field.asTable? v') >>= read) = (Field.accepted (Field.asTable? v) >>= read) := by
  cases h with
  | same => rfl
  | table h => exact hread h

theorem TableRespelled.animationsOf_eq {R : Value → Value → Prop}
    (h : TableRespelled voc (ItemRespelled R) t t')
    (hname : ∀ f ∈ voc.fields, f.1 ≠ "animations" ∧ f.2 ≠ "animations") :
    Element.animationsOf t' = Element.animationsOf t :=
  h.tables_eq (fun _ _ hv => AnimationRespelled.read_eq TableRespelled.animation_eq hv) hname

/-- The spellings of what an element is painted with, the width of its stroke aside. -/
def Style.names : List (List String) :=
  [["fill"], ["stroke"], ["transform"], ["opacity"], ["stroke-dasharray", "stroke_dasharray"],
    ["stroke-linecap", "stroke_linecap"], ["stroke-linejoin", "stroke_linejoin"],
    ["fill-opacity", "fill_opacity"], ["stroke-opacity", "stroke_opacity"]]

theorem TableRespelled.style_eq (h : TableRespelled voc R t t') {p : Paint}
    (hnames : ∀ names ∈ p.widthNames :: Style.names, voc.reads names = true) :
    Style.ofTable p t' = Style.ofTable p t := by
  simp (disch := exact hnames _ (by simp [Style.names])) only [Style.ofTable, Field.textOr,
    Field.realOr, Field.words?, Field.text?, Field.real?, h.getOr_eq, h.get?_eq]

/-- A text that is spelled with names outside the vocabulary only. -/
theorem TableRespelled.text_eq_of_fixed (h : TableRespelled voc R t t') {names : List String}
    (hnames : ∀ name ∈ names, voc.reads [name] = true) : Field.text t' names = Field.text t names := by
  have hfind : Field.find? t' names = Field.find? t names := by
    induction names with
    | nil => rfl
    | cons name names ih =>
        obtain ⟨hname, hnames⟩ := List.forall_mem_cons.mp hnames
        rw [Field.find?, Field.find?, h.field?_eq hname, ih hnames]
  rw [Field.text, Field.need, Field.need, hfind]

theorem TableRespelled.checkId_eq (h : TableRespelled voc R t t') (hid : voc.reads ["id"] = true) :
    Element.checkId t' = Element.checkId t := by
  rw [Element.checkId, Element.checkId, Field.text?, h.get?_eq hid]

theorem TableRespelled.part_eq (h : TableRespelled voc R t t') {name : String}
    (hname : voc.reads [name] = true) :
    (Value.table t').part name = (Value.table t).part name := by
  simp only [Value.part, h.field?_eq hname]

theorem TableRespelled.drawnData_eq (h : TableRespelled voc R t t') (hd : voc.reads ["d"] = true)
    (hsegments : voc.reads ["segments"] = true) : Outline.drawnData t' = Outline.drawnData t := by
  simp only [Outline.drawnData, Field.text?, Field.tables, h.get?_eq hd, h.getOr_eq hsegments]

section
variable {R : Value → Value → Prop}

theorem TableRespelled.area_eq (h : TableRespelled .area (ItemRespelled R) t t') :
    Element.circleOf t' = Element.circleOf t ∧ Element.ellipseOf t' = Element.ellipseOf t ∧
      Element.rectangleOf t' = Element.rectangleOf t := by
  have hstyle : Style.ofTable Paint.area t' = Style.ofTable Paint.area t :=
    h.style_eq (by decide +kernel)
  have hanimations := h.animationsOf_eq (by decide +kernel)
  refine ⟨?_, ?_, ?_⟩ <;>
    simp (disch := simp) only [Element.circleOf, Element.ellipseOf, Element.rectangleOf,
      Field.realOr, Field.real?, h.getOr_eq, h.get?_eq, hstyle, hanimations]

theorem TableRespelled.line_eq (h : TableRespelled .line (ItemRespelled R) t t') :
    Element.lineOf t' = Element.lineOf t ∧ Element.outlineOf t' = Element.outlineOf t := by
  have hline : Style.ofTable Paint.line t' = Style.ofTable Paint.line t :=
    h.style_eq (by decide +kernel)
  have houtline : Style.ofTable Paint.outline t' = Style.ofTable Paint.outline t :=
    h.style_eq (by decide +kernel)
  have hdata := h.drawnData_eq (by decide +kernel) (by decide +kernel)
  have hanimations := h.animationsOf_eq (by decide +kernel)
  constructor
  · simp (disch := simp) only [Element.lineOf, Element.endsInArrow, Field.realOr, Field.text?,
      h.getOr_eq, h.get?_eq, hline, hanimations]
  · simp only [Element.outlineOf, houtline, hanimations, hdata]

theorem TableRespelled.labelOf_eq (h : TableRespelled .label (ItemRespelled R) t t') :
    Element.labelOf t' = Element.labelOf t := by
  have hstyle : Style.ofTable Paint.label t' = Style.ofTable Paint.label t :=
    h.style_eq (by decide +kernel)
  have hanimations := h.animationsOf_eq (by decide +kernel)
  simp (disch := simp) only [Element.labelOf, Label.ofTable, Field.textOr, Field.realOr, Field.words?,
    Field.text?, h.getOr_eq, h.get?_eq, hstyle, hanimations]

theorem TableRespelled.connectionOf_eq (h : TableRespelled .link (ItemRespelled R) t t') :
    Element.connectionOf t' = Element.connectionOf t := by
  have hstyle : Style.ofTable Paint.link t' = Style.ofTable Paint.link t :=
    h.style_eq (by decide +kernel)
  have hanimations := h.animationsOf_eq (by decide +kernel)
  have hsource := h.text_eq_of_fixed (by decide +kernel : ∀ name ∈ ["from", "from_id"], _)
  have htarget := h.text_eq_of_fixed (by decide +kernel : ∀ name ∈ ["to", "to_id"], _)
  simp (disch := simp) only [Element.connectionOf, Element.endsInArrow, Field.text?, h.get?_eq,
    h.part_eq, hsource, htarget, hstyle, hanimations]

theorem TableRespelled.leafOf_eq {kind : String} {read : Table → Except Fault Element}
    (h : TableRespelled (.ofKind kind) (ItemRespelled R) t t')
    (hread : Element.leafOf? kind = some read) : read t' = read t := by
  simp only [Element.leafOf?] at hread
  split at hread <;> cases hread
  · exact h.area_eq.1
  · exact h.area_eq.2.1
  · exact h.area_eq.2.2
  · exact h.line_eq.1
  · exact h.labelOf_eq
  · exact h.line_eq.2
  · exact h.connectionOf_eq

/-- The elements in a group are those of its list. -/
theorem Element.children_eq_childItems (t : Table) :
    Element.children t = Element.childItems ((Table.field? t "elements").getD (.list [])) := by
  induction t with
  | nil =>
      rw [Element.children]
      rfl
  | cons e t ih =>
      obtain ⟨key, v⟩ := e
      rw [Element.children, Table.field?_cons, Value.sameKey_eq_isText]
      split
      · rfl
      · exact ih

theorem Element.ofList_congr {vs vs' : List Value}
    (h : List.Forall₂ (fun v v' => Element.ofValue v' = Element.ofValue v) vs vs') :
    Element.ofList vs' = Element.ofList vs := by
  induction h with
  | nil => rfl
  | cons hv _ ih => rw [Element.ofList, Element.ofList, hv, ih]

theorem ElementRespelled.asTable?_eq {v v' : Value} (h : ElementRespelled R v v') :
    (Field.asTable? v').isSome = (Field.asTable? v).isSome := by
  cases h <;> rfl

/-- Elements that are respelled at any depth are respelled with some relation of the elements in them. -/
theorem Respelled.exists_elementRespelled {depth : Nat} {v v' : Value} (h : Respelled depth v v') :
    ∃ R, ElementRespelled R v v' := by
  cases depth with
  | zero => exact ⟨_, h⟩
  | succ depth => exact ⟨_, h⟩

/-- Two values that a group holds in the same place, and that are read as the same element. -/
structure ReadAlike (v v' : Value) : Prop where
  table : (Field.asTable? v').isSome = (Field.asTable? v).isSome
  element : Element.ofValue v' = Element.ofValue v

theorem TableRespelled.children_eq (h : TableRespelled .group (ItemRespelled R) t t')
    (hR : ∀ v v', R v v' → ReadAlike v v') : Element.children t' = Element.children t := by
  rw [Element.children_eq_childItems, Element.children_eq_childItems]
  obtain heq | ⟨vs, vs', hvs, hvs', hitems⟩ := h.list_cases "elements" (by decide)
  · rw [heq]
  · rw [hvs, hvs']
    exact Element.ofList_congr (hitems.imp fun v v' hv => (hR v v' hv).element)

theorem TableRespelled.groupOf_eq (h : TableRespelled .group (ItemRespelled R) t t')
    (hR : ∀ v v', R v v' → ReadAlike v v') :
    Element.groupOf t' (Element.children t') = Element.groupOf t (Element.children t) := by
  have htransform : Field.words? t' ["transform"] = Field.words? t ["transform"] := by
    have hreads : Vocabulary.group.reads ["transform"] = true := by decide
    simp only [Field.words?, Field.text?, h.get?_eq hreads]
  have hanimations : Field.tables t' ["transform_animations"] TransformAnimation.ofTable =
      Field.tables t ["transform_animations"] TransformAnimation.ofTable := by
    refine h.tables_eq (fun v v' hv => ?_) (by decide)
    exact AnimationRespelled.read_eq TableRespelled.transformAnimation_eq hv
  have helements : Field.tables t' ["elements"] (fun _ => .ok ()) =
      Field.tables t ["elements"] (fun _ => .ok ()) := by
    refine h.tables_eq (fun v v' hv => ?_) (by decide)
    have htable := (hR v v' hv).table
    cases hv : Field.asTable? v <;> cases hv' : Field.asTable? v' <;> simp_all [Field.accepted]
  rw [Element.groupOf, Element.groupOf, h.checkId_eq (by decide), htransform, hanimations, helements,
    h.children_eq hR]

end

theorem ElementRespelled.exists_table {R : Value → Value → Prop} {v : Value}
    (h : ElementRespelled R (.table t) v) : ∃ t', v = .table t' := by
  cases h with
  | same => exact ⟨t, rfl⟩
  | table => exact ⟨_, rfl⟩

theorem ElementRespelled.field?_eq {R : Value → Value → Prop}
    (h : ElementRespelled R (.table t) (.table t')) {name : String}
    (hname : name ∈ Vocabulary.fixed) : Table.field? t' name = Table.field? t name := by
  cases h with
  | same => rfl
  | @table _ _ kind _ h => exact h.field?_eq (Vocabulary.reads_fixed kind hname)

theorem ElementRespelled.ofValue_eq {R : Value → Value → Prop}
    (hR : ∀ v v', R v v' → ReadAlike v v') {v v' : Value} (h : ElementRespelled R v v') :
    Element.ofValue v' = Element.ofValue v := by
  cases h with
  | same => rfl
  | @table t t' kind type h =>
      have htype := (h.field?_eq (Vocabulary.reads_fixed kind (by decide))).trans type
      have hid := h.checkId_eq (Vocabulary.reads_fixed kind (by decide))
      simp only [Element.ofValue, type, htype, Option.getD_some]
      split
      · rename_i hgroup
        obtain rfl : kind = "group" := by simpa [Value.isText] using hgroup
        exact h.groupOf_eq hR
      · simp only [Element.leaf]
        cases hread : Element.leafOf? kind with
        | none => rfl
        | some read => simp only [hid, h.leafOf_eq hread]

/-- Elements that differ only in spellings are read as the same element. -/
theorem Respelled.ofValue_eq {depth : Nat} {v v' : Value} (h : Respelled depth v v') :
    Element.ofValue v' = Element.ofValue v := by
  induction depth generalizing v v' with
  | zero =>
      refine ElementRespelled.ofValue_eq (fun v v' heq => ?_) h
      rw [heq]
      exact ⟨rfl, rfl⟩
  | succ depth ih =>
      refine ElementRespelled.ofValue_eq (fun v v' hv => ⟨?_, ih hv⟩) h
      obtain ⟨R, hR⟩ := hv.exists_elementRespelled
      exact hR.asTable?_eq

end

end SvgDiagram

import SvgDiagram.Proofs.Number.Reading
import SvgDiagram.Proofs.Position.Renaming

/-!
The grammar of position expressions. An expression is a word, a point and a word, and perhaps a sign and a
number with blanks before each of the two; blanks may stand around all of it. Words and digits are of any
script. A text is written in at most one way, and the reader takes exactly the texts that are written in
some way. Main statement: what a text means among registered elements.
-/

namespace SvgDiagram

namespace Text

theorem isBlank_of_isDigit {c : Char} (h : isDigit c = true) : isBlank c = false := by
  rw [Bool.eq_false_iff]
  intro hb
  have hn := digitValue?_blanks c.toNat (by simpa [isBlank] using hb)
  rw [Char.ofNat_toNat] at hn
  simp [isDigit, hn] at h

end Text

namespace Number.Digits

theorem head?_pointed {fraction : List Char} {c : Char} (h : (pointed fraction).head? = some c) :
    c = '.' := by
  unfold pointed at h
  split at h
  · cases h
  · cases h
    rfl

theorem not_isDigit_pointed {fraction : List Char} {c : Char} (h : (pointed fraction).head? = some c) :
    Text.isDigit c = false := by
  rw [head?_pointed h]
  decide

theorem pointed_inj {f g : List Char} (h : pointed f = pointed g) : f = g := by
  unfold pointed at h
  cases f <;> cases g <;> simp_all

/-- The text of digits tells which of them stand before the point. -/
theorem text_inj {d e : Digits} (h : d.text = e.text) : d = e := by
  have hd := List.forall_mem_append.mp d.isDigit
  have he := List.forall_mem_append.mp e.isDigit
  obtain ⟨hwhole, hpointed⟩ := Text.run_inj hd.1 he.1 (fun c => not_isDigit_pointed)
    (fun c => not_isDigit_pointed) h
  exact Digits.ext hwhole (pointed_inj hpointed)

theorem isDigit_of_getLast?_text {d : Digits} {c : Char} (h : d.text.getLast? = some c) :
    Text.isDigit c = true := by
  have hd := List.forall_mem_append.mp d.isDigit
  unfold text pointed at h
  cases hf : d.fraction with
  | nil =>
      rw [hf] at h
      exact hd.1 c (List.mem_of_getLast? (by simpa using h))
  | cons f fs =>
      rw [hf, List.isEmpty_cons, if_neg Bool.false_ne_true, List.getLast?_append_cons,
        List.getLast?_cons_cons] at h
      exact hd.2 c (hf ▸ List.mem_of_getLast? h)

end Number.Digits

namespace Position

/-- An offset as it is written. -/
@[ext]
structure WrittenOffset where
  before : List Char
  negative : Bool
  between : List Char
  number : Number.Digits
  isBlank : ∀ c ∈ before ++ between, Text.isBlank c = true
  whole_ne : number.whole ≠ []

def WrittenOffset.text (o : WrittenOffset) : List Char :=
  o.before ++ (if o.negative then '-' else '+') :: (o.between ++ o.number.text)

/-- An expression as it is written. -/
@[ext]
structure WrittenExpression where
  target : List Char
  property : List Char
  offset : Option WrittenOffset
  isWord : ∀ c ∈ target ++ property, Text.isWord c = true
  target_ne : target ≠ []
  property_ne : property ≠ []

namespace WrittenExpression

def offsetText (w : WrittenExpression) : List Char := (w.offset.map WrittenOffset.text).getD []

def text (w : WrittenExpression) : List Char := w.target ++ '.' :: (w.property ++ w.offsetText)

end WrittenExpression

/-- The text is the expression with blanks around it. -/
def Spells (text : String) (w : WrittenExpression) : Prop :=
  ∃ lead trail, (∀ c ∈ lead, Text.isBlank c = true) ∧ (∀ c ∈ trail, Text.isBlank c = true) ∧
    text.toList = lead ++ (w.text ++ trail)

namespace WrittenOffset

theorem sign_chars (negative : Bool) :
    Text.isBlank (if negative then '-' else '+') = false ∧
      Text.isWord (if negative then '-' else '+') = false := by
  cases negative <;> decide

/-- A number begins with a digit, which is no blank. -/
theorem not_isBlank_number (o : WrittenOffset) {c : Char} (h : o.number.text.head? = some c) :
    Text.isBlank c = false := by
  obtain ⟨d, ds, hds⟩ := List.exists_cons_of_ne_nil o.whole_ne
  rw [Number.Digits.text, hds, List.cons_append, List.head?_cons, Option.some.injEq] at h
  subst h
  exact Text.isBlank_of_isDigit (o.number.isDigit d (by simp [hds]))

theorem not_isWord_text (o : WrittenOffset) {c : Char} (h : o.text.head? = some c) :
    Text.isWord c = false := by
  cases hb : o.before with
  | nil =>
      rw [text, hb, List.nil_append, List.head?_cons, Option.some.injEq] at h
      rw [← h]
      exact (sign_chars o.negative).2
  | cons b bs =>
      rw [text, hb, List.cons_append, List.head?_cons, Option.some.injEq] at h
      subst h
      have hblank := o.isBlank b (by simp [hb])
      rw [Bool.eq_false_iff]
      intro hword
      rw [Text.isBlank_of_isWord hword] at hblank
      cases hblank

theorem text_ne_nil (o : WrittenOffset) : o.text ≠ [] := by simp [text]

theorem text_inj {o p : WrittenOffset} (h : o.text = p.text) : o = p := by
  have ho := List.forall_mem_append.mp o.isBlank
  have hp := List.forall_mem_append.mp p.isBlank
  obtain ⟨hbefore, hrest⟩ := Text.run_inj ho.1 hp.1 (by simpa using (sign_chars o.negative).1)
    (by simpa using (sign_chars p.negative).1) h
  obtain ⟨hsign, hrest⟩ := List.cons.inj hrest
  obtain ⟨hbetween, hnumber⟩ := Text.run_inj ho.2 hp.2 (fun c => o.not_isBlank_number)
    (fun c => p.not_isBlank_number) hrest
  have hnegative : o.negative = p.negative := by
    cases hn : o.negative <;> cases hm : p.negative <;> simp_all
  exact WrittenOffset.ext hbefore hnegative hbetween (Number.Digits.text_inj hnumber)

end WrittenOffset

theorem isNumeral_iff (cs : List Char) :
    isNumeral cs = true ↔ ∃ d : Number.Digits, d.whole ≠ [] ∧ cs = d.text := by
  constructor
  · intro h
    simp only [isNumeral, Bool.and_eq_true, Bool.not_eq_true', List.isEmpty_eq_false_iff] at h
    obtain ⟨hne, hrest⟩ := h
    have hcs := List.takeWhile_append_dropWhile (p := Text.isDigit) (l := cs)
    have hwhole : ∀ c ∈ cs.takeWhile Text.isDigit, Text.isDigit c = true :=
      fun c hc => List.mem_takeWhile_imp hc
    cases hr : cs.dropWhile Text.isDigit with
    | nil =>
        refine ⟨⟨cs.takeWhile Text.isDigit, [], by simpa using hwhole, by simpa using hne⟩, hne, ?_⟩
        rw [hr] at hcs
        exact hcs.symm
    | cons c fraction =>
        simp only [hr, Bool.and_eq_true, beq_iff_eq, List.all_eq_true, Bool.not_eq_true'] at hrest
        obtain ⟨⟨rfl, hfraction⟩, hf⟩ := hrest
        refine ⟨⟨cs.takeWhile Text.isDigit, fraction,
          List.forall_mem_append.mpr ⟨hwhole, hf⟩, by simp [hne]⟩, hne, ?_⟩
        rw [hr] at hcs
        rw [Number.Digits.text, Number.Digits.pointed, hfraction]
        exact hcs.symm
  · rintro ⟨d, hne, rfl⟩
    have hd := List.forall_mem_append.mp d.isDigit
    simp only [isNumeral, Number.Digits.text,
      Text.takeWhile_run hd.1 fun c => Number.Digits.not_isDigit_pointed,
      Text.dropWhile_run hd.1 fun c => Number.Digits.not_isDigit_pointed]
    cases hf : d.fraction with
    | nil => simpa [Number.Digits.pointed] using hne
    | cons c cs => simpa [Number.Digits.pointed, hf, hne] using hd.2

theorem readOffset?_iff (cs : List Char) (o : Offset) :
    readOffset? cs = some (some o) ↔
      ∃ w : WrittenOffset, cs = w.text ∧ o = ⟨w.negative, w.number.text⟩ := by
  constructor
  · intro h
    simp only [readOffset?] at h
    split at h
    · cases h
    · split at h
      · rename_i c rest hrest
        split at h
        · rename_i hread
          cases h
          simp only [Bool.and_eq_true, Bool.or_eq_true, beq_iff_eq] at hread
          obtain ⟨hc, hnumeral⟩ := hread
          obtain ⟨d, hne, hd⟩ := (isNumeral_iff _).mp hnumeral
          have hblanks {xs : List Char} : ∀ c ∈ xs.takeWhile Text.isBlank, Text.isBlank c = true :=
            fun c hc => List.mem_takeWhile_imp hc
          refine ⟨⟨cs.takeWhile Text.isBlank, c == '-', rest.takeWhile Text.isBlank, d,
            List.forall_mem_append.mpr ⟨hblanks, hblanks⟩, hne⟩, ?_, by rw [← hd]⟩
          have hsign : (if (c == '-') = true then '-' else '+') = c := by
            rcases hc with rfl | rfl <;> rfl
          rw [WrittenOffset.text, hsign, ← hd, List.takeWhile_append_dropWhile, ← hrest,
            List.takeWhile_append_dropWhile]
        · cases h
      · cases h
  · rintro ⟨w, rfl, rfl⟩
    have hblank := List.forall_mem_append.mp w.isBlank
    have hnumeral : isNumeral w.number.text = true := (isNumeral_iff _).mpr ⟨_, w.whole_ne, rfl⟩
    have hsign : ∀ c, ((if w.negative then '-' else '+') :: (w.between ++ w.number.text)).head? = some c →
        Text.isBlank c = false := by
      simpa using (WrittenOffset.sign_chars w.negative).1
    have hbefore := Text.dropWhile_run hblank.1 hsign
    have hbetween := Text.dropWhile_run hblank.2 (fun c => w.not_isBlank_number)
    unfold readOffset?
    rw [if_neg (by simpa using w.text_ne_nil), WrittenOffset.text, hbefore]
    simp only [hbetween, hnumeral]
    cases w.negative <;> rfl

theorem readOffset?_eq_none_iff (cs : List Char) : readOffset? cs = some none ↔ cs = [] := by
  constructor
  · intro h
    simp only [readOffset?] at h
    split at h
    · rename_i hempty
      exact List.isEmpty_iff.mp hempty
    · split at h
      · split at h <;> cases h
      · cases h
  · rintro rfl
    rfl

namespace WrittenExpression

/-- What the reader keeps of an expression. -/
def expression (w : WrittenExpression) : Expression :=
  ⟨w.target, w.property, w.offset.map fun o => ⟨o.negative, o.number.text⟩⟩

theorem not_isWord_offsetText (w : WrittenExpression) {c : Char} (h : w.offsetText.head? = some c) :
    Text.isWord c = false := by
  unfold offsetText at h
  cases ho : w.offset with
  | none => simp [ho] at h
  | some o =>
      rw [ho] at h
      exact o.not_isWord_text h

theorem not_isWord_point {rest : List Char} {c : Char} (h : ('.' :: rest).head? = some c) :
    Text.isWord c = false := by
  cases h
  decide

theorem text_inj {v w : WrittenExpression} (h : v.text = w.text) : v = w := by
  have hv := List.forall_mem_append.mp v.isWord
  have hw := List.forall_mem_append.mp w.isWord
  obtain ⟨htarget, hrest⟩ := Text.run_inj hv.1 hw.1 (fun c => not_isWord_point)
    (fun c => not_isWord_point) h
  obtain ⟨hproperty, hoffset⟩ := Text.run_inj hv.2 hw.2 (fun c => v.not_isWord_offsetText)
    (fun c => w.not_isWord_offsetText) (List.cons.inj hrest).2
  apply WrittenExpression.ext htarget hproperty
  unfold offsetText at hoffset
  -- An offset is never empty, so both have one or neither.
  cases hvo : v.offset with
  | none =>
      cases hwo : w.offset with
      | none => rfl
      | some p => simp [hvo, hwo, p.text_ne_nil.symm] at hoffset
  | some o =>
      cases hwo : w.offset with
      | none => simp [hvo, hwo, o.text_ne_nil] at hoffset
      | some p =>
          rw [hvo, hwo] at hoffset
          rw [WrittenOffset.text_inj hoffset]

theorem not_isBlank_head (w : WrittenExpression) {c : Char} (h : w.text.head? = some c) :
    Text.isBlank c = false := by
  obtain ⟨d, ds, hds⟩ := List.exists_cons_of_ne_nil w.target_ne
  rw [text, hds, List.cons_append, List.head?_cons, Option.some.injEq] at h
  subst h
  exact Text.isBlank_of_isWord (w.isWord d (by simp [hds]))

theorem not_isBlank_last (w : WrittenExpression) {c : Char} (h : w.text.getLast? = some c) :
    Text.isBlank c = false := by
  unfold text offsetText at h
  cases ho : w.offset with
  | none =>
      rw [ho] at h
      have hlast : w.property.getLast? = some c := by
        simpa [List.getLast?_append, List.getLast?_cons, List.getLast?_eq_some_getLast w.property_ne]
          using h
      exact Text.isBlank_of_isWord (w.isWord c (by simp [List.mem_of_getLast? hlast]))
  | some o =>
      have hlast : o.number.text.getLast? = some c := by
        simpa [ho, WrittenOffset.text, List.getLast?_append, List.getLast?_cons,
          List.getLast?_eq_some_getLast o.number.text_ne_nil] using h
      exact Text.isBlank_of_isDigit (Number.Digits.isDigit_of_getLast?_text hlast)

theorem text_ne_nil (w : WrittenExpression) : w.text ≠ [] := by simp [text]

end WrittenExpression

theorem spells_iff (text : String) (w : WrittenExpression) :
    Spells text w ↔ Text.strip text.toList = w.text := by
  constructor
  · rintro ⟨lead, trail, hlead, htrail, htext⟩
    rw [htext]
    exact Text.strip_between hlead htrail w.text_ne_nil (fun c => w.not_isBlank_head)
      (fun c => w.not_isBlank_last)
  · intro h
    obtain ⟨trail, htrail, hrest⟩ := Text.exists_strip_append text.toList
    refine ⟨text.toList.takeWhile Text.isBlank, trail, fun c hc => List.mem_takeWhile_imp hc, htrail, ?_⟩
    rw [← h, ← hrest, List.takeWhile_append_dropWhile]

theorem Spells.unique {text : String} {v w : WrittenExpression} (hv : Spells text v)
    (hw : Spells text w) : v = w :=
  WrittenExpression.text_inj (((spells_iff text v).mp hv).symm.trans ((spells_iff text w).mp hw))

/-- The reader takes exactly the texts that are written as expressions. -/
theorem read?_iff_spells (text : String) (e : Expression) :
    Expression.read? text = some e ↔ ∃ w, Spells text w ∧ e = w.expression := by
  simp only [spells_iff]
  rw [read?_iff]
  constructor
  · rintro ⟨rest, hstrip, htarget, hwords, hproperty, hne, hoffset⟩
    have hproperties : ∀ c ∈ e.property, Text.isWord c = true := by
      rw [hproperty]
      exact fun c hc => List.mem_takeWhile_imp hc
    have hrest : rest = e.property ++ rest.dropWhile Text.isWord := by
      rw [hproperty, List.takeWhile_append_dropWhile]
    have hword := List.forall_mem_append.mpr ⟨hwords, hproperties⟩
    cases ho : e.offset with
    | none =>
        rw [ho, readOffset?_eq_none_iff] at hoffset
        refine ⟨⟨e.target, e.property, none, hword, htarget, hne⟩, ?_, ?_⟩
        · rw [hstrip, hrest, hoffset]
          rfl
        · cases e
          cases ho
          rfl
    | some o =>
        rw [ho, readOffset?_iff] at hoffset
        obtain ⟨w, hw, hwo⟩ := hoffset
        refine ⟨⟨e.target, e.property, some w, hword, htarget, hne⟩, ?_, ?_⟩
        · rw [hstrip, hrest, hw]
          rfl
        · cases e
          cases ho
          rw [hwo]
          rfl
  · rintro ⟨w, hstrip, rfl⟩
    have hw := List.forall_mem_append.mp w.isWord
    refine ⟨w.property ++ w.offsetText, hstrip, w.target_ne, hw.1, ?_, w.property_ne, ?_⟩
    · exact (Text.takeWhile_run hw.2 fun c => w.not_isWord_offsetText).symm
    · rw [Text.dropWhile_run hw.2 fun c => w.not_isWord_offsetText]
      unfold WrittenExpression.offsetText WrittenExpression.expression
      cases w.offset with
      | none => rfl
      | some o => exact (readOffset?_iff _ _).mpr ⟨o, rfl, rfl⟩

/-! ## Meaning -/

/-- Tables under keys. -/
abbrev Registry := List (Value × Table)

def Registry.table (registry : Registry) : Table := registry.map fun e => (e.1, .table e.2)

def Registry.find? (registry : Registry) (id : String) : Option Table :=
  (List.find? (fun e => e.1.isText id) registry).map Prod.snd

theorem Registry.field?_table (registry : Registry) (id : String) :
    Table.field? registry.table id = (registry.find? id).map .table := by
  induction registry with
  | nil => rfl
  | cons e rest ih =>
      unfold Registry.table Registry.find? at *
      rw [List.map_cons, Table.field?_cons, Value.sameKey_eq_isText, List.find?_cons, ih]
      cases e.1.isText id <;> rfl

namespace WrittenExpression

def shift (w : WrittenExpression) (base : Float) : Float :=
  match w.offset with
  | none => base
  | some o => if o.negative then base - o.number.value else base + o.number.value

/-- What an expression means among registered elements. -/
def meaning (w : WrittenExpression) (registry : Registry) : Except Fault Float :=
  let target := String.ofList w.target
  let property := String.ofList w.property
  match registry.find? target with
  | none => .error (.unknownElement target)
  | some element =>
    match Table.field? element property with
    | none => .error (.unknownAttribute property target)
    | some v => v.toFloat.map w.shift

theorem offsetValue_number (o : WrittenOffset) :
    Expression.offsetValue o.number.text = .ok o.number.value := by
  have hread := Number.readFloat?_numeral ⟨o.number, none⟩
  simp only [Expression.offsetValue, Value.toFloat]
  simp [Number.Numeral.text, Number.signText, Number.Numeral.value] at hread
  rw [hread]

theorem eval_expression (w : WrittenExpression) (registry : Registry) :
    w.expression.eval (.table registry.table) = w.meaning registry := by
  simp only [Expression.eval, expression, meaning, Value.holds, Table.contains_string,
    registry.field?_table, Option.isSome_map, Outcome.ok_bind]
  cases hfound : registry.find? (String.ofList w.target) with
  | none => simp
  | some element =>
      have hpart : (Value.table registry.table).part (String.ofList w.target) = .ok (.table element) :=
        Value.part_eq_ok.mpr ⟨_, rfl, by rw [registry.field?_table, hfound]; rfl⟩
      simp only [hpart, Option.isSome_some, Bool.not_true, Bool.false_eq_true, ite_false,
        Outcome.ok_bind]
      cases hv : Table.field? element (String.ofList w.property) with
      | none => simp
      | some v =>
          have hvalue : (Value.table element).part (String.ofList w.property) = .ok v :=
            Value.part_eq_ok.mpr ⟨_, rfl, hv⟩
          simp only [hvalue, Option.isSome_some, Bool.not_true, Bool.false_eq_true, ite_false,
            Outcome.ok_bind]
          cases v.toFloat with
          | error fault => rfl
          | ok base =>
              unfold shift
              cases w.offset with
              | none => rfl
              | some o => simp [offsetValue_number, Except.map]

end WrittenExpression

theorem toFloat_ne_invalid (v : Value) (text : String) :
    v.toFloat ≠ .error (.invalidExpression text) := by
  cases v with
  | int n =>
      simp only [Value.toFloat, Value.intToFloat]
      split <;> simp
  | string _ | bytes _ =>
      simp only [Value.toFloat]
      split <;> simp
  | _ => simp [Value.toFloat]

/-- An expression that is written is never invalid. -/
theorem WrittenExpression.meaning_ne_invalid (w : WrittenExpression) (registry : Registry)
    (text : String) : w.meaning registry ≠ .error (.invalidExpression text) := by
  simp only [meaning]
  split
  · simp
  · split
    · simp
    · rename_i v _
      have hv := toFloat_ne_invalid v text
      cases hfloat : v.toFloat with
      | ok x => simp [Except.map]
      | error fault =>
          rw [hfloat] at hv
          exact hv

/-- A text is an invalid expression exactly if it is written in no way, and otherwise in one way only,
and means what that way of writing it says. -/
theorem evalText_follows_grammar (registry : Registry) (text : String) :
    (evalText (.table registry.table) text = .error (.invalidExpression text) ↔
        ¬ ∃ w, Spells text w) ∧
      ∀ w, Spells text w →
        (∀ v, Spells text v → v = w) ∧ evalText (.table registry.table) text = w.meaning registry := by
  have hmeaning (w : WrittenExpression) (hw : Spells text w) :
      evalText (.table registry.table) text = w.meaning registry := by
    rw [evalText, (read?_iff_spells text w.expression).mpr ⟨w, hw, rfl⟩]
    exact w.eval_expression registry
  refine ⟨⟨?_, ?_⟩, fun w hw => ⟨fun v hv => hv.unique hw, hmeaning w hw⟩⟩
  · rintro hinvalid ⟨w, hw⟩
    exact w.meaning_ne_invalid registry text ((hmeaning w hw).symm.trans hinvalid)
  · intro hnone
    have hread : Expression.read? text = none := by
      rw [Option.eq_none_iff_forall_ne_some]
      intro e he
      obtain ⟨w, hw, -⟩ := (read?_iff_spells text e).mp he
      exact hnone ⟨w, hw⟩
    rw [evalText, hread]

/-- A word of digits after a word, and digits of two scripts after the sign. -/
def mixedDigits : WrittenExpression where
  target := ['b', '2']
  property := ['5']
  offset := some {
    before := [' ']
    negative := true
    between := ['\t']
    number := ⟨['٣'], ['2', '5'], List.all_eq_true.mp (by decide +kernel), List.cons_ne_nil _ _⟩
    isBlank := List.all_eq_true.mp (by decide +kernel)
    whole_ne := List.cons_ne_nil _ _ }
  isWord := List.all_eq_true.mp (by decide +kernel)
  target_ne := List.cons_ne_nil _ _
  property_ne := List.cons_ne_nil _ _

theorem mixedDigits_meaning :
    Spells "\u2003b2.5 -\t٣.25\n" mixedDigits ∧
      evalText (.table (Registry.table [(.string "b2", [(.string "5", .int 10)])]))
        "\u2003b2.5 -\t٣.25\n" = .ok 6.75 := by
  have hspells : Spells "\u2003b2.5 -\t٣.25\n" mixedDigits :=
    ⟨['\u2003'], ['\n'], List.all_eq_true.mp (by decide +kernel),
      List.all_eq_true.mp (by decide +kernel), by decide +kernel⟩
  refine ⟨hspells, ?_⟩
  rw [((evalText_follows_grammar _ _).2 mixedDigits hspells).2]
  exact Outcome.toOption_eq_some.mp (by decide +kernel)

end Position
end SvgDiagram

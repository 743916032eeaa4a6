import SvgDiagram.Proofs.Number.Reading
import SvgDiagram.Proofs.Outcome
import SvgDiagram.Proofs.Outline.Layout
import SvgDiagram.Proofs.Workspace.Calls

/-!
The size of a page that is not asked for. It is looked for in the markup of the picture: the first place where
the attribute is set to digits counts, wherever that is, unless it says zero. Main statement: a screenshot and a
recording of one picture are made at one size, on the page and around it.
-/

namespace SvgDiagram

namespace Text

theorem after?_eq_some {needle cs rest : List Char} :
    after? needle cs = some rest ↔ cs = needle ++ rest := by
  induction needle generalizing cs with
  | nil => simp [after?, eq_comm]
  | cons n ns ih =>
      cases cs with
      | nil => simp [after?]
      | cons c cs =>
          by_cases hc : n = c
          · simp [after?, hc, ih]
          · simp [after?, hc, Ne.symm hc]

end Text

namespace Number

/-- The digits of an integer numeral without underscores. -/
theorem takeDigits?_digits {ds : List Char} (hds : ∀ c ∈ ds, c.isDigit = true) (previous : Bool)
    (h : previous = true ∨ ds ≠ []) : takeDigits? 10 previous ds = some (ds.map fun c => c.toNat - 48) := by
  induction ds generalizing previous with
  | nil =>
      obtain rfl : previous = true := h.resolve_right (absurd rfl)
      rfl
  | cons c ds ih =>
      rw [List.forall_mem_cons] at hds
      have hline : c ≠ '_' := by
        rintro rfl
        cases hds.1
      have hvalue : c.toNat - 48 < 10 := by
        have hbounds := Char.isDigit_iff_toNat.mp hds.1
        have hnine : '9'.toNat = 57 := rfl
        omega
      simp [takeDigits?, letterDigit?, hline, hds.1, hvalue, ih hds.2 true (.inl rfl)]

theorem dropBaseMark_ten (cs : List Char) : dropBaseMark 10 cs = cs := by
  unfold dropBaseMark
  split
  · rfl
  · rfl

/-- A run of digits of any script is read as the number that they spell. -/
theorem readInt_digits {ds : List Char} (hds : ∀ c ∈ ds, Text.isDigit c = true) (hne : ds ≠ [])
    (hlength : ds.length ≤ intDigitLimit) : readInt 10 (String.ofList ds) = .value (ofDigits 10 ds) := by
  have hplain : ∀ c ∈ ds.map plainDigit, c.isDigit = true := by
    intro c hc
    obtain ⟨d, hd, rfl⟩ := List.mem_map.mp hc
    exact isDigit_plainDigit (hds d hd)
  have hnormal : normalised (String.ofList ds) = ds.map plainDigit := by
    rw [normalised, String.toList_ofList,
      Text.trimBoth_eq_self fun c hc => Text.isPadding_of_isDigit (hds c hc)]
  have hsign : takeSign (ds.map plainDigit) = (false, ds.map plainDigit) := by
    obtain ⟨c, cs, rfl⟩ := List.exists_cons_of_ne_nil hne
    exact takeSign_digit (hplain _ (by simp))
  have htake := takeDigits?_digits hplain false (.inr (by simpa using hne))
  have hvalue : ((ds.map plainDigit).map fun c => c.toNat - 48).foldl (fun n d => n * 10 + d) 0 =
      ofDigits 10 ds := by
    rw [← ofDigits_map_plainDigit hds, ofDigits, List.foldl_map]
    apply List.foldl_ext
    intro n c hc
    rw [Text.digitValue?_of_ascii (hplain c hc), Option.getD_some]
  simp only [readInt, hnormal, hsign, dropBaseMark_ten, htake, List.length_map, hvalue]
  simp [Nat.not_lt.mpr hlength]

end Number

namespace Render

/-- Behind `front` the attribute is set to a run of digits that the text does not continue. -/
def SetAt (name front digits text : List Char) : Prop :=
  ∃ quote rest, text = front ++ (name ++ '=' :: quote :: (digits ++ rest)) ∧
    (quote = '"' ∨ quote = '\'') ∧ digits ≠ [] ∧ (∀ c ∈ digits, Text.isDigit c = true) ∧
    ∀ c ∈ rest.head?, Text.isDigit c = false

section
variable {name front digits text : List Char}

theorem digitsHere?_eq_some : digitsHere? name text = some digits ↔ SetAt name [] digits text := by
  have hafter (quote : Char) (rest : List Char) :
      Text.after? (name ++ ['=']) text = some (quote :: (digits ++ rest)) ↔
        text = [] ++ (name ++ '=' :: quote :: (digits ++ rest)) := by
    rw [Text.after?_eq_some, List.append_assoc]
    rfl
  constructor
  · intro h
    simp only [digitsHere?, Option.bind_eq_bind, Option.bind_eq_some_iff] at h
    obtain ⟨value, hvalue, h⟩ := h
    split at h
    · rename_i quote value
      simp only [Bool.and_eq_true, Bool.or_eq_true, beq_iff_eq, Bool.not_eq_true',
        List.isEmpty_eq_false_iff] at h
      split at h
      · rename_i hquote
        cases h
        refine ⟨quote, value.dropWhile Text.isDigit, ?_, hquote.1, hquote.2,
          fun c hc => List.mem_takeWhile_imp hc, ?_⟩
        · rw [← hafter, List.takeWhile_append_dropWhile]
          exact hvalue
        · intro c hc
          have hstop := List.head?_dropWhile_not Text.isDigit value
          rwa [Option.mem_def.mp hc] at hstop
      · cases h
    · cases h
  · rintro ⟨quote, rest, htext, hquote, hne, hdigits, hrest⟩
    have hrun := Outline.takeWhile_digits hdigits hrest
    have hvalid : ((quote == '"' || quote == '\'') && !digits.isEmpty) = true := by
      simpa using ⟨hquote, hne⟩
    simp only [digitsHere?, (hafter quote rest).mpr htext, Option.bind_eq_bind, Option.bind_some, hrun,
      hvalid, ite_true]

theorem not_setAt_nil : ¬ SetAt name front digits [] := by
  rintro ⟨quote, rest, htext, -⟩
  simp at htext

/-- A place is at the front of the text, or in the rest behind its first character. -/
theorem setAt_cons_iff {c : Char} {cs : List Char} :
    SetAt name front digits (c :: cs) ↔
      front = [] ∧ digitsHere? name (c :: cs) = some digits ∨
        ∃ front', front = c :: front' ∧ SetAt name front' digits cs := by
  cases front with
  | nil => simp [digitsHere?_eq_some]
  | cons d front =>
      constructor
      · rintro ⟨quote, rest, htext, hset⟩
        obtain ⟨rfl, hcs⟩ := List.cons.inj htext
        exact .inr ⟨front, rfl, quote, rest, hcs, hset⟩
      · rintro (⟨hempty, -⟩ | ⟨front', hfront, quote, rest, rfl, hset⟩)
        · cases hempty
        · cases hfront
          exact ⟨quote, rest, rfl, hset⟩

theorem digitsOf?_eq_none :
    digitsOf? name text = none ↔ ∀ front digits, ¬ SetAt name front digits text := by
  induction text with
  | nil => simp [digitsOf?, not_setAt_nil]
  | cons c cs ih =>
      rw [digitsOf?]
      cases hhere : digitsHere? name (c :: cs) with
      | some found =>
          simp only [reduceCtorEq, false_iff, not_forall, not_not]
          exact ⟨[], found, digitsHere?_eq_some.mp hhere⟩
      | none =>
          simp only [ih, setAt_cons_iff, hhere, reduceCtorEq, and_false, false_or, not_exists, not_and]
          constructor
          · rintro h _ digits front' - hset
            exact h front' digits hset
          · intro h front digits
            exact h _ digits front rfl

/-- The attribute is set to the digits at the leftmost place where it is set to any. -/
def SetFirst (name digits text : List Char) : Prop :=
  ∃ front, SetAt name front digits text ∧
    ∀ front' digits', SetAt name front' digits' text → front.length ≤ front'.length

theorem setFirst_of_digitsOf? (h : digitsOf? name text = some digits) : SetFirst name digits text := by
  induction text with
  | nil => cases h
  | cons c cs ih =>
      rw [digitsOf?] at h
      cases hhere : digitsHere? name (c :: cs) with
      | some found =>
          rw [hhere] at h
          cases h
          exact ⟨[], digitsHere?_eq_some.mp hhere, fun _ _ _ => Nat.zero_le _⟩
      | none =>
          rw [hhere] at h
          obtain ⟨front, hset, hleast⟩ := ih h
          refine ⟨c :: front, setAt_cons_iff.mpr (.inr ⟨front, rfl, hset⟩), ?_⟩
          intro front' digits' hset'
          -- The front of the text is no such place, so every other one is in the rest.
          rcases setAt_cons_iff.mp hset' with ⟨-, hfound⟩ | ⟨front'', rfl, hset''⟩
          · rw [hhere] at hfound
            cases hfound
          · exact Nat.succ_le_succ (hleast front'' digits' hset'')

theorem SetAt.digitsHere?_eq (h : SetAt name front digits text) :
    digitsHere? name (text.drop front.length) = some digits := by
  obtain ⟨quote, rest, rfl, hset⟩ := h
  rw [List.drop_left]
  exact digitsHere?_eq_some.mpr ⟨quote, rest, rfl, hset⟩

theorem SetFirst.unique {digits' : List Char} (h : SetFirst name digits text)
    (h' : SetFirst name digits' text) : digits = digits' := by
  obtain ⟨front, hset, hleast⟩ := h
  obtain ⟨front', hset', hleast'⟩ := h'
  have hlength : front.length = front'.length :=
    Nat.le_antisymm (hleast front' digits' hset') (hleast' front digits hset)
  have hhere := hset'.digitsHere?_eq
  rw [← hlength, hset.digitsHere?_eq] at hhere
  exact Option.some.inj hhere

theorem SetAt.digits_infix (h : SetAt name front digits text) : digits <:+: text := by
  obtain ⟨quote, rest, rfl, -⟩ := h
  exact ⟨front ++ (name ++ ['=', quote]), rest, by simp⟩

end

/-- What the extent of a page is if it is not asked for: what the attribute is set to first, and a default where
that is zero or the attribute is never set. -/
inductive DefaultExtent (name : List Char) (fallback : Nat) (text : List Char) : Nat → Prop
  | named {digits : List Char} (h : SetFirst name digits text) (hne : Number.ofDigits 10 digits ≠ 0) :
      DefaultExtent name fallback text (Number.ofDigits 10 digits)
  | zero {digits : List Char} (h : SetFirst name digits text) (hzero : Number.ofDigits 10 digits = 0) :
      DefaultExtent name fallback text fallback
  | unset (h : ∀ front digits, ¬ SetAt name front digits text) :
      DefaultExtent name fallback text fallback

theorem DefaultExtent.unique {name text : List Char} {fallback n m : Nat}
    (h : DefaultExtent name fallback text n) (h' : DefaultExtent name fallback text m) : n = m := by
  cases h with
  | named hfirst hne =>
      cases h' with
      | named hfirst' _ => rw [hfirst.unique hfirst']
      | zero hfirst' hzero => exact absurd (hfirst.unique hfirst' ▸ hzero) hne
      | unset hunset => exact absurd hfirst.choose_spec.1 (hunset _ _)
  | zero hfirst hzero =>
      cases h' with
      | named hfirst' hne => exact absurd (hfirst.unique hfirst' ▸ hzero) hne
      | zero _ _ | unset _ => rfl
  | unset hunset =>
      cases h' with
      | named hfirst _ => exact absurd hfirst.choose_spec.1 (hunset _ _)
      | zero _ _ | unset _ => rfl

/-- No run of digits in a text is too long for an integer. -/
def HasShortRuns (text : List Char) : Prop :=
  ∀ run, run <:+: text → (∀ c ∈ run, Text.isDigit c = true) → run.length ≤ 4300

section
variable {name text : String}

theorem dimension_of_setFirst {digits : List Char} (hruns : HasShortRuns text.toList)
    (hfound : digitsOf? name.toList text.toList = some digits) :
    dimension name text = .ok (some (Number.ofDigits 10 digits : Int)) := by
  obtain ⟨front, hset, -⟩ := setFirst_of_digitsOf? hfound
  have hlength := hruns digits hset.digits_infix
  obtain ⟨-, -, -, -, hne, hdigits, -⟩ := hset
  have hread : Number.readInt 10 (String.ofList digits) = .value (Number.ofDigits 10 digits) :=
    Number.readInt_digits hdigits hne (hlength hdigits)
  simp only [dimension, hfound, Value.textToInt, hread, Value.ofReading, Outcome.ok_bind,
    Outcome.pure_eq_ok]

theorem exists_extent (name : String) (fallback : Nat) (hfallback : 0 < fallback) (hruns : HasShortRuns text.toList) :
    ∃ n : Nat, 0 < n ∧ DefaultExtent name.toList fallback text.toList n ∧
      extent name fallback .null (.markup text) = .ok (.int n) := by
  cases hfound : digitsOf? name.toList text.toList with
  | none =>
      have hdimension : dimension name text = .ok none := by simp only [dimension, hfound]
      refine ⟨fallback, hfallback, .unset (digitsOf?_eq_none.mp hfound), ?_⟩
      simp only [extent, Picture.opening, hdimension, Outcome.ok_bind, Outcome.pure_eq_ok]
  | some digits =>
      have hdimension := dimension_of_setFirst hruns hfound
      have hfirst := setFirst_of_digitsOf? hfound
      by_cases hzero : Number.ofDigits 10 digits = 0
      · refine ⟨fallback, hfallback, .zero hfirst hzero, ?_⟩
        simp [extent, Picture.opening, hdimension, hzero]
      · refine ⟨_, Nat.pos_of_ne_zero hzero, .named hfirst hzero, ?_⟩
        simp [extent, Picture.opening, hdimension, hzero]

end

/-- Two lines of the page, in the style of its body, give the size of the page. -/
theorem html_states_size (page : Page) (markup : String) :
    ∃ before after, page.html markup = String.intercalate "\n" (before ++
      ["            width: " ++ page.size.width.text ++ "px;",
        "            height: " ++ page.size.height.text ++ "px;"] ++ after) :=
  ⟨[_, _, _, _, _, _, _, _, _, _], [_, _, _, _, _, _, _, _, _, _, _, _], rfl⟩

end Render

namespace Workspace

theorem size_of_markup {text : String} {width height : Nat}
    (hwidth : Render.extent "width" 800 .null (.markup text) = .ok (.int width))
    (hheight : Render.extent "height" 600 .null (.markup text) = .ok (.int height)) :
    Render.size .null .null (.markup text) = .ok ⟨.int width, .int height⟩ := by
  rw [Render.size, hwidth, hheight]
  rfl

/-- Without a size that is asked for, a screenshot and a recording of the same markup show it on a page of the
same size, in a viewport of that size, and the recording has it too: what the markup names first, or a
default. -/
theorem default_size_everywhere (text : String) (hruns : Render.HasShortRuns text.toList) :
    ∃ width height : Nat, 0 < width ∧ 0 < height ∧
      Render.DefaultExtent "width".toList 800 text.toList width ∧
      Render.DefaultExtent "height".toList 600 text.toList height ∧
      let size : Render.Size := ⟨.int width, .int height⟩
      let page : Render.Page := ⟨size, .markup text⟩
      (∃ before after, page.html text = String.intercalate "\n" (before ++
        ["            width: " ++ toString width ++ "px;",
          "            height: " ++ toString height ++ "px;"] ++ after)) ∧
      ∀ (w : Workspace) (output duration : Value),
        (∃ rest, (rest = [] ∨ rest = [.closeBrowser]) ∧
          (outcome (capture (.markup text) output .null .null) w).2.calls =
            w.calls ++ [.launch, .newPage (some size), .setContent page, .screenshot output.text] ++ rest) ∧
        (outcome (record (.markup text) output duration .null .null) w).2.calls =
          w.calls ++ [.launch, .newContext size size, .newPage none, .setContent page, .wait duration,
            .closeContext, .closeBrowser] := by
  obtain ⟨width, hwidth, hnamed, hextent⟩ := Render.exists_extent "width" 800 (by decide) hruns
  obtain ⟨height, hheight, hnamed', hextent'⟩ := Render.exists_extent "height" 600 (by decide) hruns
  have hsize := size_of_markup hextent hextent'
  refine ⟨width, height, hwidth, hheight, hnamed, hnamed', ?_, ?_⟩
  · exact Render.html_states_size ⟨⟨.int width, .int height⟩, .markup text⟩ text
  · intro w output duration
    exact ⟨calls_capture hsize w, calls_record hsize w⟩

/-- Values that are empty, not quoted or not digits come first, then seven in another script; the height is zero. -/
def puzzlingMarkup : String := "<svg data-width=\"\" width=50 width=\"x1\" width='٠٠٧px' height=\"0\" width='9'/>"

theorem puzzlingMarkup_recorded_seven_wide :
    Render.HasShortRuns puzzlingMarkup.toList ∧
      (outcome (record (.markup puzzlingMarkup) (.string "v.webm") (.int 3000) .null .null)
          (empty ⟨["work"], "/home/ann", []⟩ .plain)).2.calls =
        [.launch, .newContext ⟨.int 7, .int 600⟩ ⟨.int 7, .int 600⟩, .newPage none,
          .setContent ⟨⟨.int 7, .int 600⟩, .markup puzzlingMarkup⟩, .wait (.int 3000), .closeContext,
          .closeBrowser] := by
  have hruns : Render.HasShortRuns puzzlingMarkup.toList := by
    intro run hrun _
    have hlength : puzzlingMarkup.toList.length ≤ 4300 := by decide +kernel
    exact hrun.length_le.trans hlength
  obtain ⟨width, height, -, -, hwidth, hheight, -, hcalls⟩ := default_size_everywhere puzzlingMarkup hruns
  have hseven : Render.SetFirst "width".toList ['٠', '٠', '٧'] puzzlingMarkup.toList :=
    Render.setFirst_of_digitsOf? (by decide +kernel)
  have hzero : Render.SetFirst "height".toList ['0'] puzzlingMarkup.toList :=
    Render.setFirst_of_digitsOf? (by decide +kernel)
  obtain rfl : width = 7 := hwidth.unique (.named hseven (by decide +kernel))
  obtain rfl : height = 600 := hheight.unique (.zero hzero (by decide +kernel))
  exact ⟨hruns, (hcalls _ _ _).2⟩

end Workspace
end SvgDiagram

import SvgDiagram.Drawing.Draw
import SvgDiagram.Proofs.Position.Respelling

/-!
A drawing does not depend on how fields are spelled. Where the elements stand depends on names that have one
spelling; what is read from each element after that is the same in every spelling.
-/

namespace SvgDiagram
namespace Drawing

open Position (isLink readsPositions ofFields)

theorem exists_elementRespelled (depth : Nat) : ∃ R, Respelled depth = ElementRespelled R := by
  cases depth with
  | zero => exact ⟨Eq, rfl⟩
  | succ depth => exact ⟨Respelled depth, rfl⟩

/-- The two spellings of a field are interchangeable, in each element at every depth of groups and in each
animation by itself: if a scene has a drawing, then a scene that differs from it in the spelling only has
the same drawing. No table has both spellings of a field, and expressions read position attributes only. -/
theorem ofScene_respelled {depth : Nat} {t t' : Table} {d : Drawing}
    (h : TableRespelled .scene (fun _ => Respelled depth) t t')
    (hreads : ∀ vs, Table.field? t "elements" = some (.list vs) → ∀ u, .table u ∈ vs →
      isLink u = false → readsPositions u = true)
    (hd : ofScene (.table t) = .ok d) : ofScene (.table t') = .ok d := by
  have hwidth : Table.field? t' "width" = Table.field? t "width" := h.field?_eq (by decide)
  have hheight : Table.field? t' "height" = Table.field? t "height" := h.field?_eq (by decide)
  simp only [ofScene, Value.entries, Outcome.ok_bind, Outcome.bind_eq_ok, hwidth, hheight] at hd ⊢
  obtain ⟨out, hout, es, hes, hd⟩ := hd
  obtain heq | ⟨vs, vs', hvs, hvs', hitems⟩ := h.list_cases "elements" (by decide)
  · rw [heq]
    exact ⟨out, hout, es, hes, hd⟩
  · obtain ⟨R, hR⟩ := exists_elementRespelled depth
    have hread : ∀ v v', ElementRespelled R v v' → Element.ofValue v' = Element.ofValue v := by
      rw [← hR]
      exact fun v v' => Respelled.ofValue_eq
    simp only [hR] at hitems
    rw [hvs, Option.getD_some] at hout
    obtain ⟨out', hout', hrespelled⟩ := Position.resolve_respelled hitems (hreads vs hvs) hout
    rw [hvs', Option.getD_some]
    exact ⟨out', hout', es, (Element.ofList_congr (hrespelled.imp hread)).trans hes, hd⟩

section
variable (one other : String × String → String)

def movedCircle : Table :=
  ofFields [("type", .string "circle"), ("id", .string "a"), ("cx", .int 10), ("cy", .int 20),
    (one ("stroke-width", "stroke_width"), .int 3),
    ("animations", .list [.table (ofFields [("attribute", .string "r"), ("dur", .string "1s"),
      (other ("repeatCount", "repeat_count"), .string "2")])])]

def sizedText : Table :=
  ofFields [("type", .string "text"), ("id", .string "b"), ("x", .string "a.cx + 40"),
    ("y", .string "a.cy"), (one ("font-size", "font_size"), .int 12), ("text", .string "to")]

def markedLink : Table :=
  ofFields [(other ("marker-end", "marker_end"), .string "arrow"), ("type", .string "connection"),
    ("from", .string "a"), ("to", .string "b")]

def turnedGroup (child : Table) : Table :=
  ofFields [("type", .string "group"), ("elements", .list [.table child]),
    ("transform_animations", .list [.table (ofFields [("type", .string "rotate"),
      ("dur", .string "3s"), (one ("from", "from_value"), .string "0"),
      (other ("to", "to_value"), .string "360")])])]

/-- A scene in which some fields are spelled in one way, and others in another way. -/
def spelledScene : Table :=
  ofFields [("elements", .list [.table (movedCircle one other), .table (sizedText one),
    .table (markedLink other),
    .table (turnedGroup one other (turnedGroup one other (movedCircle one other)))])]

end

theorem respelled_movedCircle (R : Value → Value → Prop) :
    ElementRespelled R (.table (movedCircle Prod.fst Prod.snd))
      (.table (movedCircle Prod.snd Prod.fst)) := by
  have htype : Table.field? (movedCircle Prod.fst Prod.snd) "type" = some (.string "circle") := rfl
  refine .table htype ⟨by decide +kernel, by decide +kernel, ?_⟩
  refine .cons (.kept _) (.cons (.kept _) (.cons (.kept _) (.cons (.kept _) (.cons ?_ (.cons ?_ .nil)))))
  · exact .respelled _ (.inl (by decide))
  · refine .items (by decide) (.cons (.table ⟨by decide, by decide, ?_⟩) .nil)
    exact .cons (.kept _) (.cons (.kept _) (.cons (.respelled _ (.inr (by decide))) .nil))

theorem respelled_turnedGroup {R : Value → Value → Prop} {child child' : Table}
    (h : R (.table child) (.table child')) :
    ElementRespelled R (.table (turnedGroup Prod.fst Prod.snd child))
      (.table (turnedGroup Prod.snd Prod.fst child')) := by
  have htype : Table.field? (turnedGroup Prod.fst Prod.snd child) "type" = some (.string "group") := rfl
  refine .table htype ⟨?_, ?_, ?_⟩
  · exact fun f hf => by cases hf
  · exact fun f hf => by cases hf
  have helements : "elements" ∈ (Vocabulary.ofKind "group").lists := by decide
  refine .cons (.kept _) (.cons (.items helements (.cons h .nil)) (.cons ?_ .nil))
  refine .items (by decide) (.cons (.table ⟨by decide, by decide, ?_⟩) .nil)
  exact .cons (.kept _) (.cons (.kept _) (.cons (.respelled _ (.inl (by decide)))
    (.cons (.respelled _ (.inr (by decide))) .nil)))

theorem spelledScene_same_drawing :
    ∃ d, ofScene (.table (spelledScene Prod.fst Prod.snd)) = .ok d ∧
      ofScene (.table (spelledScene Prod.snd Prod.fst)) = .ok d := by
  have hsome : (ofScene (.table (spelledScene Prod.fst Prod.snd))).toOption.isSome = true := by
    decide +kernel
  obtain ⟨d, hd⟩ := Outcome.exists_ok_of_isSome hsome
  have hrespelled : TableRespelled .scene (fun _ => Respelled 2) (spelledScene Prod.fst Prod.snd)
      (spelledScene Prod.snd Prod.fst) := by
    refine ⟨by decide, by decide, .cons (.items (by decide) ?_) .nil⟩
    refine .cons (respelled_movedCircle _) (.cons ?_ (.cons ?_ (.cons ?_ .nil)))
    · have htype : Table.field? (sizedText Prod.fst) "type" = some (.string "text") := rfl
      refine .table htype ⟨by decide +kernel, by decide +kernel, ?_⟩
      exact .cons (.kept _) (.cons (.kept _) (.cons (.kept _) (.cons (.kept _)
        (.cons (.respelled _ (.inl (by decide))) (.cons (.kept _) .nil)))))
    · have htype : Table.field? (markedLink Prod.snd) "type" = some (.string "connection") := rfl
      refine .table htype ⟨by decide +kernel, by decide +kernel, ?_⟩
      exact .cons (.respelled _ (.inr (by decide))) (.cons (.kept _) (.cons (.kept _)
        (.cons (.kept _) .nil)))
    · exact respelled_turnedGroup (respelled_turnedGroup (respelled_movedCircle _))
  refine ⟨d, hd, ofScene_respelled hrespelled ?_ hd⟩
  intro vs hvs u hu
  cases hvs
  simp only [List.mem_cons, List.not_mem_nil, or_false, Value.table.injEq] at hu
  obtain rfl | rfl | rfl | rfl := hu <;> decide +kernel

end Drawing
end SvgDiagram

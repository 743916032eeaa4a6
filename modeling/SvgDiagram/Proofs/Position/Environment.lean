import Mathlib.Data.List.Induction
import SvgDiagram.Position.Resolve
import SvgDiagram.Proofs.Position.Numeral
import SvgDiagram.Proofs.Value.Table

/-!
What positions mean, without a registry. The environment of an element is the list of the placed elements
before it; an id stands for the last of them that has it. Placing is total: an expression without a value
is placed at zero, and whether every expression has one is asked apart.
-/

namespace SvgDiagram
namespace Position

def isLink (t : Table) : Bool :=
  ((Table.field? t "type").map fun kind => kind.isText "connection").getD false

def links (es : List Table) : List Table := es.filter isLink

def shapes (es : List Table) : List Table := es.filter fun t => !isLink t

/-- The id of an element. An empty one counts as none. -/
def idOf? (t : Table) : Option String :=
  match Table.field? t "id" with
  | some (.string s) => if s.isEmpty then none else some s
  | _ => none

/-- An id that is given is a text. -/
def hasTextId (t : Table) : Bool :=
  match Table.field? t "id" with
  | none | some (.string _) => true
  | some v => !v.isGiven

/-- The last element with an id. -/
def named? (env : List Table) (id : String) : Option Table :=
  env.reverse.find? fun t => idOf? t == some id

structure IsLast (ts : List Table) (id : String) (i : Nat) (t : Table) : Prop where
  at_index : ts[i]? = some t
  has_id : idOf? t = some id
  none_after : ∀ j u, i < j → ts[j]? = some u → idOf? u ≠ some id

def Offset.amount (o : Offset) : Float := (Number.readFloat? (String.ofList o.numeral)).getD 0

def Expression.valueFrom (e : Expression) (base : Float) : Float :=
  match e.offset with
  | none => base
  | some o => if o.negative then base - o.amount else base + o.amount

/-- The value of a text among elements: it must be an expression, name one of them, and that one must have
the attribute, as a number. -/
def valueAmong? (env : List Table) (text : String) : Option Float := do
  let e ← Expression.read? text
  let element ← named? env (String.ofList e.target)
  let v ← Table.field? element (String.ofList e.property)
  let base ← v.toFloat.toOption
  return e.valueFrom base

/-- Every expression of an element has a value. -/
def Meant (env : List Table) (t : Table) : Prop :=
  ∀ key text, (key, .string text) ∈ t → isAttribute key = true → (valueAmong? env text).isSome = true

def placedValue (env : List Table) : Value → Value
  | .string text => .float ((valueAmong? env text).getD 0)
  | v => v

/-- An element with its expressions replaced by their values, and nothing else changed. -/
def placed (env : List Table) (t : Table) : Table :=
  t.map fun e => (e.1, if isAttribute e.1 then placedValue env e.2 else e.2)

/-- Elements placed one after the other, each among those before it. -/
def placeFrom (env : List Table) : List Table → List Table
  | [] => []
  | t :: rest => placed env t :: placeFrom (env ++ [placed env t]) rest

/-- Every expression of every element has a value among the elements placed before. -/
def MeantFrom (env : List Table) : List Table → Prop
  | [] => True
  | t :: rest => Meant env t ∧ MeantFrom (env ++ [placed env t]) rest

/-- The centre of the element that an end of a connection names. -/
def centreNamed? (env : List Table) : Option Value → Option Point
  | some (.string id) => do (centre (.table (← named? env id))).toOption
  | _ => none

def linked (t : Table) (a b : Point) : Table :=
  [("x1", a.x), ("y1", a.y), ("x2", b.x), ("y2", b.y)].foldl
    (fun t e => Table.setField t e.1 (.float e.2)) t

/-- Both ends of a connection have centres. -/
def Joins (env : List Table) (c : Table) : Prop :=
  (centreNamed? env (Table.field? c "from")).isSome = true ∧
    (centreNamed? env (Table.field? c "to")).isSome = true

/-- A connection between the centres of its two ends. An end without one is put at the origin. -/
def joined (env : List Table) (c : Table) : Table :=
  linked c ((centreNamed? env (Table.field? c "from")).getD ⟨0, 0⟩)
    ((centreNamed? env (Table.field? c "to")).getD ⟨0, 0⟩)

/-- The elements of a scene that are no connections, in their places: each is placed among those before
it, every expression has a value there, and every connection has its two ends among all of them. -/
structure Placement (es env : List Table) : Prop where
  placed_before : ∀ i, env[i]? = ((shapes es)[i]?).map (placed (env.take i))
  meant : ∀ i t, (shapes es)[i]? = some t → Meant (env.take i) t
  joins : ∀ c ∈ links es, Joins env c

def arranged (es env : List Table) : List Value :=
  ((links es).map (joined env) ++ env).map .table

theorem named?_append (env : List Table) (t : Table) (id : String) :
    named? (env ++ [t]) id = if idOf? t = some id then some t else named? env id := by
  by_cases h : idOf? t = some id
  · simp [named?, h]
  · simp [named?, h]

theorem mem_of_named? {env : List Table} {id : String} {t : Table} (h : named? env id = some t) :
    t ∈ env ∧ idOf? t = some id := by
  have hm := List.mem_of_find?_eq_some h
  have hp := List.find?_some h
  exact ⟨by simpa using hm, by simpa using hp⟩

theorem isLast_append (before after : List Table) {t : Table} {id : String} (ht : idOf? t = some id)
    (hafter : ∀ u ∈ after, idOf? u ≠ some id) :
    IsLast (before ++ t :: after) id before.length t where
  at_index := by simp
  has_id := ht
  none_after := by
    intro j u hj hu
    obtain ⟨m, rfl⟩ := Nat.exists_eq_add_of_lt hj
    rw [List.getElem?_append_right (by omega)] at hu
    have hm : before.length + m + 1 - before.length = m + 1 := by omega
    rw [hm, List.getElem?_cons_succ] at hu
    exact hafter u (List.mem_of_getElem? hu)

theorem IsLast.named?_eq {ts : List Table} {id : String} {i : Nat} {t : Table} (h : IsLast ts id i t) :
    named? ts id = some t := by
  -- From the end: the last element is the one that is meant, or it has another id.
  induction ts using List.reverseRecOn with
  | nil => cases h.at_index
  | append_singleton ts u ih =>
      rw [named?_append]
      by_cases hi : i = ts.length
      · have hu : u = t := by simpa [hi] using h.at_index
        rw [hu, if_pos h.has_id]
      · have hlt : i < ts.length := by
          have hbound := (List.getElem?_eq_some_iff.mp h.at_index).1
          simp only [List.length_append, List.length_singleton] at hbound
          omega
        have hu : idOf? u ≠ some id := h.none_after ts.length u hlt (by simp)
        rw [if_neg hu]
        apply ih
        refine ⟨by simpa [List.getElem?_append_left hlt] using h.at_index, h.has_id, ?_⟩
        intro j v hj hv
        have hjlt := (List.getElem?_eq_some_iff.mp hv).1
        exact h.none_after j v hj (by rwa [List.getElem?_append_left hjlt])

theorem isAttribute_string (name : String) :
    isAttribute (.string name) = attributes.contains name := rfl

theorem field?_placed (env : List Table) (t : Table) (name : String) :
    Table.field? (placed env t) name =
      (Table.field? t name).map fun v => if attributes.contains name then placedValue env v else v :=
  Table.field?_map (fun key v => if isAttribute key then placedValue env v else v) t name

theorem field?_placed_eq {name : String} (h : attributes.contains name = false) (env : List Table)
    (t : Table) : Table.field? (placed env t) name = Table.field? t name := by
  simp only [field?_placed, h, Bool.false_eq_true, ite_false, Option.map_id']

theorem idOf?_placed (env : List Table) (t : Table) : idOf? (placed env t) = idOf? t := by
  simp only [idOf?, field?_placed_eq (show attributes.contains "id" = false by decide)]

theorem hasTextId_placed (env : List Table) (t : Table) :
    hasTextId (placed env t) = hasTextId t := by
  simp only [hasTextId, field?_placed_eq (show attributes.contains "id" = false by decide)]

/-- Each element is placed among those before it. -/
theorem getElem?_placeFrom (env ts : List Table) (i : Nat) :
    (placeFrom env ts)[i]? = (ts[i]?).map (placed (env ++ (placeFrom env ts).take i)) := by
  induction ts generalizing env i with
  | nil => simp [placeFrom]
  | cons t ts ih =>
      cases i with
      | zero => simp [placeFrom]
      | succ i => simp [placeFrom, ih]

/-- A list in which each element is placed among those before it is the placed one. -/
theorem eq_placeFrom {env ts us : List Table}
    (h : ∀ i, us[i]? = (ts[i]?).map (placed (env ++ us.take i))) : us = placeFrom env ts := by
  induction ts generalizing env us with
  | nil => simpa [placeFrom] using h 0
  | cons t ts ih =>
      cases us with
      | nil => simpa using h 0
      | cons u us =>
          have hu : u = placed env t := by simpa using h 0
          subst hu
          have hus : us = placeFrom (env ++ [placed env t]) ts := by
            apply ih
            intro i
            simpa using h (i + 1)
          rw [placeFrom, ← hus]

theorem Placement.eq_placeFrom {es env : List Table} (h : Placement es env) :
    env = placeFrom [] (shapes es) :=
  Position.eq_placeFrom h.placed_before

/-- The last element with an id keeps being the last in its place. -/
theorem Placement.named?_eq {es env : List Table} (h : Placement es env) {id : String} {i : Nat} {t : Table}
    (ht : IsLast (shapes es) id i t) : named? env id = some (placed (env.take i) t) := by
  apply IsLast.named?_eq
  refine ⟨by rw [h.placed_before, ht.at_index]; rfl, by rw [idOf?_placed]; exact ht.has_id, ?_⟩
  intro j u hj hu
  rw [h.placed_before] at hu
  obtain ⟨v, hv, rfl⟩ := Option.map_eq_some_iff.mp hu
  rw [idOf?_placed]
  exact ht.none_after j v hj hv

theorem meantFrom_iff (env ts : List Table) :
    MeantFrom env ts ↔
      ∀ i t, ts[i]? = some t → Meant (env ++ (placeFrom env ts).take i) t := by
  induction ts generalizing env with
  | nil => simp [MeantFrom]
  | cons t ts ih =>
      simp only [MeantFrom, ih]
      constructor
      · rintro ⟨ht, hts⟩ i u hi
        cases i with
        | zero =>
            cases hi
            simpa using ht
        | succ i => simpa [placeFrom] using hts i u (by simpa using hi)
      · intro h
        refine ⟨by simpa using h 0 t rfl, ?_⟩
        intro i u hi
        simpa [placeFrom] using h (i + 1) u (by simpa using hi)

end Position
end SvgDiagram

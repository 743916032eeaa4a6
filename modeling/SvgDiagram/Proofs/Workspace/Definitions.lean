import SvgDiagram.Proofs.Scene.Merge
import SvgDiagram.Workspace.Scene

/-!
Scenes whose definitions come from libraries. A library that is missing fails the scene before any element is
looked at, and of the elements the first one without a definition does. Otherwise every element is what it makes
of its definition, and nothing that no element uses has a part in the result.
-/

namespace SvgDiagram
namespace Workspace

open Scene (IsGlossary definition? elementFault? Expanded SameUsed libraryDefinitions)

def hasLibrary (w : Workspace) (path : String) : Bool :=
  w.files.contains w.host.directory (Files.Path.ofString path)

/-- The file at a path holds definitions, or nothing. -/
def Defines (w : Workspace) (path : String) (t : Table) : Prop :=
  IsGlossary t ∧ ∃ content v, w.files.read w.host.directory (Files.Path.ofString path) = .ok content ∧
    content.document w.media = .ok v ∧ libraryDefinitions v = .table t

/-- A scene in a workspace: its elements, its definitions, its libraries, and what these hold where they
exist. -/
structure Describes (w : Workspace) (scene : Table) (es : List Table) (given : Table)
    (paths : List String) (contents : String → Table) : Prop where
  elements : (Table.field? scene "elements").getD (.list []) = .list (es.map .table)
  definitions : (Table.field? scene "definitions").getD (.table []) = .table given
  libraries : (Table.field? scene "libraries").getD (.list []) = .list (paths.map .string)
  distinct : ∀ e ∈ es, Table.Distinct e
  glossary : IsGlossary given
  defines : ∀ path ∈ paths, w.hasLibrary path = true → w.Defines path (contents path)

section

variable {w : Workspace} {paths : List String} {contents : String → Table}

theorem library_missing {path : String} (h : w.hasLibrary path = false) :
    w.library (.string path) = .error (.libraryNotFound path) := by
  rw [hasLibrary] at h
  simp only [library, Files.Path.ofValue, Outcome.ok_bind, h]
  rfl

theorem library_defines {path : String} {t : Table} (hhas : w.hasLibrary path = true)
    (h : w.Defines path t) :
    ∃ v, w.library (.string path) = .ok v ∧ libraryDefinitions v = .table t := by
  obtain ⟨-, content, v, hread, hdocument, hv⟩ := h
  rw [hasLibrary] at hhas
  refine ⟨v, ?_, hv⟩
  simp only [library, Files.Path.ofValue, Outcome.ok_bind, hhas, hread, hdocument]
  rfl

theorem addLibraries_cons {path : String} {u t : Table} {rest : List Value}
    (hhas : w.hasLibrary path = true) (h : w.Defines path u) :
    Scene.addLibraries w.library t (.string path :: rest) =
      Scene.addLibraries w.library (Table.update t u) rest := by
  obtain ⟨v, hv, hu⟩ := library_defines hhas h
  simp only [Scene.addLibraries, hv, Outcome.ok_bind, hu, Scene.addDefinitions]

/-- The first library that is missing is told. -/
theorem addLibraries_missing {path : String} {t : Table}
    (hdefines : ∀ p ∈ paths, w.hasLibrary p = true → w.Defines p (contents p))
    (h : paths.find? (fun p => !w.hasLibrary p) = some path) :
    Scene.addLibraries w.library t (paths.map .string) = .error (.libraryNotFound path) := by
  induction paths generalizing t with
  | nil => cases h
  | cons p paths ih =>
      obtain ⟨hp, hpaths⟩ := List.forall_mem_cons.mp hdefines
      rw [List.find?_cons] at h
      cases hhas : w.hasLibrary p with
      | true =>
          rw [List.map_cons, addLibraries_cons hhas (hp hhas)]
          exact ih hpaths (by simpa [hhas] using h)
      | false =>
          obtain rfl : p = path := by simpa [hhas] using h
          simp only [List.map_cons, Scene.addLibraries, library_missing hhas, Outcome.error_bind]

/-- Of the libraries that have a name, the last one gives its definition. -/
theorem addLibraries_found {t : Table}
    (hdefines : ∀ p ∈ paths, w.hasLibrary p = true → w.Defines p (contents p))
    (hhas : ∀ p ∈ paths, w.hasLibrary p = true) :
    ∃ u, Scene.addLibraries w.library t (paths.map .string) = .ok u ∧ ∀ name,
      Table.get? u name = ((paths.map contents).reverse.findSome? fun t => Table.get? t name).or
        (Table.get? t name) := by
  induction paths generalizing t with
  | nil => exact ⟨t, rfl, fun _ => rfl⟩
  | cons p paths ih =>
      obtain ⟨hp, hpaths⟩ := List.forall_mem_cons.mp hdefines
      obtain ⟨hhasp, hhaspaths⟩ := List.forall_mem_cons.mp hhas
      obtain ⟨u, hu, hget⟩ := ih (t := Table.update t (contents p)) hpaths hhaspaths
      refine ⟨u, by rw [List.map_cons, addLibraries_cons hhasp (hp hhasp), hu], fun name => ?_⟩
      -- The first library is asked after all the others, and before what was there.
      rw [hget, Table.get?_update t (hp hhasp).1.distinct, List.map_cons, List.reverse_cons,
        List.findSome?_append, List.findSome?_singleton, Option.or_assoc]

end

section

variable {w : Workspace} {scene : Table} {es : List Table} {given : Table} {paths : List String}
  {contents : String → Table}

theorem Describes.definitions_missing (h : Describes w scene es given paths contents) {path : String}
    (hmissing : paths.find? (fun p => !w.hasLibrary p) = some path) :
    Scene.definitions w.library scene = .error (.libraryNotFound path) := by
  simp only [Scene.definitions, h.libraries, Value.items, Outcome.ok_bind,
    addLibraries_missing h.defines hmissing, Outcome.error_bind]

theorem Describes.definitions_found (h : Describes w scene es given paths contents)
    (hhas : ∀ p ∈ paths, w.hasLibrary p = true) :
    ∃ known, Scene.definitions w.library scene = .ok known ∧
      Table.get? known = definition? given (paths.map contents) := by
  obtain ⟨u, hu, hget⟩ := addLibraries_found (t := []) h.defines hhas
  refine ⟨Table.update u given, ?_, ?_⟩
  · simp only [Scene.definitions, h.libraries, Value.items, Outcome.ok_bind, hu, h.definitions,
      Scene.addDefinitions]
  · funext name
    rw [Table.get?_update u h.glossary.distinct, hget, definition?]
    simp [Table.get?]

theorem Describes.exists_table (h : Describes w scene es given paths contents)
    (hhas : ∀ p ∈ paths, w.hasLibrary p = true) (name v : Value)
    (hv : definition? given (paths.map contents) name = some v) : ∃ d, v = .table d ∧ Table.Distinct d := by
  refine Scene.exists_table_of_definition? h.glossary ?_ hv
  exact List.forall_mem_map.mpr fun p hp => (h.defines p hp (hhas p hp)).1

/-- The entries of an expanded scene: its elements, and all others but definitions and libraries. -/
theorem get?_expanded (scene : Table) (elements : Value) {key : Value}
    (hkey : key.isText "elements" = false) :
    Table.get? (Table.setField (Scene.rest scene) "elements" elements) key =
      if key.isText "definitions" || key.isText "libraries" then none else Table.get? scene key := by
  have hsame (name : String) : (Value.string name).sameKey key = key.isText name := by
    rw [Value.sameKey_comm, Value.sameKey_eq_isText]
  rw [Table.setField, Table.get?_set, Scene.rest, Table.get?_erase, Table.get?_erase, hsame, hsame, hsame,
    hkey]
  cases key.isText "definitions" <;> cases key.isText "libraries" <;> rfl

theorem Describes.failsWith_expandScene (h : Describes w scene es given paths contents)
    (hhas : ∀ p ∈ paths, w.hasLibrary p = true) :
    Outcome.FailsWith (w.expandScene (.table scene))
      (es.findSome? (elementFault? (definition? given (paths.map contents)))) := by
  obtain ⟨known, hknown, hget⟩ := h.definitions_found hhas
  rw [expandScene, Scene.expand_eq hknown h.elements, List.mapM_map, ← hget]
  refine Outcome.FailsWith.bind_ok (Outcome.failsWith_mapM fun e _ => ?_) fun _ => ⟨_, rfl⟩
  refine Scene.failsWith_expandElement fun name v hv => ?_
  exact h.exists_table hhas name v (hget ▸ hv)

theorem Describes.expanded_of_expandScene (h : Describes w scene es given paths contents)
    (hhas : ∀ p ∈ paths, w.hasLibrary p = true) {v : Value}
    (hv : w.expandScene (.table scene) = .ok v) :
    ∃ es', v = .table (Table.setField (Scene.rest scene) "elements" (.list (es'.map .table))) ∧
      List.Forall₂ (Expanded (definition? given (paths.map contents))) es es' := by
  obtain ⟨known, hknown, hget⟩ := h.definitions_found hhas
  rw [expandScene, Scene.expand_eq hknown h.elements, List.mapM_map] at hv
  simp only [Outcome.bind_eq_ok, Outcome.pure_eq_ok, Except.ok.injEq] at hv
  obtain ⟨vs, hvs, rfl⟩ := hv
  have htables : ∀ name v, Table.get? known name = some v → ∃ d, v = .table d ∧ Table.Distinct d :=
    fun name v hv => h.exists_table hhas name v (hget ▸ hv)
  obtain ⟨es', rfl, hes'⟩ := Scene.forall₂_expanded h.distinct htables (Outcome.forall₂_of_mapM hvs)
  exact ⟨es', rfl, hget ▸ hes'⟩

/-- Scenes that agree in all but their definitions and libraries, and in the definitions that their elements
use, are expanded alike. -/
theorem Describes.expandScene_of_sameUsed (h : Describes w scene es given paths contents)
    (hhas : ∀ p ∈ paths, w.hasLibrary p = true) {w' : Workspace} {scene' given' : Table}
    {paths' : List String} {contents' : String → Table}
    (h' : Describes w' scene' es given' paths' contents') (hhas' : ∀ p ∈ paths', w'.hasLibrary p = true)
    (hrest : Scene.rest scene' = Scene.rest scene)
    (hused : SameUsed es given (paths.map contents) given' (paths'.map contents')) :
    w'.expandScene (.table scene') = w.expandScene (.table scene) := by
  obtain ⟨known, hknown, hget⟩ := h.definitions_found hhas
  obtain ⟨known', hknown', hget'⟩ := h'.definitions_found hhas'
  have hdistinct : ∀ t ∈ paths.map contents, Table.Distinct t :=
    List.forall_mem_map.mpr fun p hp => (h.defines p hp (hhas p hp)).1.distinct
  rw [expandScene, expandScene, Scene.expand_eq hknown h.elements, Scene.expand_eq hknown' h'.elements,
    hrest, Scene.mapM_expandElement_congr fun e he name huse => ?_]
  have hname : name ∈ Scene.usedNames es := List.mem_filterMap.mpr ⟨e, he, huse⟩
  rw [hget, hget', Scene.definition?_of_sameUsed h.glossary.distinct hdistinct hused hname]

/-- Expanding a scene fails for the first library that is missing, or else for the first element that uses what
cannot be a name or has no definition. Otherwise it gives the scene without its definitions and libraries, with
each element kept or merged with the definition that it uses. It does not depend on definitions that are not
used, on libraries of which nothing is used, or on the order of definitions. -/
theorem expandScene_merges (h : Describes w scene es given paths contents) :
    (∀ path, paths.find? (fun p => !w.hasLibrary p) = some path →
      w.expandScene (.table scene) = .error (.libraryNotFound path)) ∧
    ((∀ p ∈ paths, w.hasLibrary p = true) →
      (∀ f, es.findSome? (elementFault? (definition? given (paths.map contents))) = some f →
        w.expandScene (.table scene) = .error f) ∧
      (es.findSome? (elementFault? (definition? given (paths.map contents))) = none →
        ∃ result es', w.expandScene (.table scene) = .ok (.table result) ∧
          List.Forall₂ (Expanded (definition? given (paths.map contents))) es es' ∧
          Table.field? result "elements" = some (.list (es'.map .table)) ∧
          ∀ key, key.isText "elements" = false → Table.get? result key =
            if key.isText "definitions" || key.isText "libraries" then none else Table.get? scene key) ∧
      ∀ w' scene' given' paths' contents', Describes w' scene' es given' paths' contents' →
        (∀ p ∈ paths', w'.hasLibrary p = true) → Scene.rest scene' = Scene.rest scene →
        SameUsed es given (paths.map contents) given' (paths'.map contents') →
        w'.expandScene (.table scene') = w.expandScene (.table scene)) := by
  refine ⟨fun path hmissing => ?_, fun hhas => ⟨fun f hf => ?_, fun hnone => ?_, ?_⟩⟩
  · simp only [expandScene, Scene.expand, Value.entries, Outcome.ok_bind, h.definitions_missing hmissing,
      Outcome.error_bind]
  · exact ((h.failsWith_expandScene hhas).eq_error_iff f).mpr hf
  · have hok := h.failsWith_expandScene hhas
    rw [hnone] at hok
    obtain ⟨v, hv⟩ := hok
    obtain ⟨es', rfl, hes'⟩ := h.expanded_of_expandScene hhas hv
    refine ⟨_, es', hv, hes', ?_, fun key hkey => get?_expanded scene _ hkey⟩
    rw [Table.field?_setField, if_pos rfl]
  · intro w' scene' given' paths' contents' h' hhas' hrest hused
    exact h.expandScene_of_sameUsed hhas h' hhas' hrest hused

end

def dotLibrary : Table :=
  [(.string "dot", .table [(.string "type", .string "circle"), (.string "r", .int 1)])]

def starLibrary : Table := [(.string "star", .table [(.string "type", .string "path")])]

def colourLibrary : Table :=
  [(.string "dot", .table [(.string "fill", .string "red"), (.string "r", .int 2)]),
    (.string "box", .table [(.string "type", .string "rectangle")])]

/-- Three libraries in the working directory. Two of them define a dot, and one only what is not used. -/
def shelf : Workspace :=
  { Workspace.empty ⟨["work"], "/home/ann", []⟩ .plain with
    files := ⟨[(["work"], .directory),
      (["work", "a"], .file (.text "dot: \x7btype: circle, r: 1\x7d\n")),
      (["work", "b"], .file (.text "star: \x7btype: path\x7d\n")),
      (["work", "c"], .file (.text "dot: \x7bfill: red, r: 2\x7d\nbox: \x7btype: rectangle\x7d\n"))]⟩ }

def shelved (path : String) : Table :=
  if path = "a" then dotLibrary else if path = "b" then starLibrary else colourLibrary

def boxDefinition : Table := [(.string "box", .table [(.string "x", .int 5)])]

def pinDefinition : Table := [(.string "pin", .table [])]

/-- An element that uses a dot, one that uses a box, and one that uses nothing. -/
def shelfElements : List Table :=
  [[(.string "use", .string "dot"), (.string "r", .int 9)], [(.string "use", .string "box")],
    [(.string "type", .string "line")]]

def shelfScene (given : Table) (paths : List String) : Table :=
  [(.string "width", .int 50), (.string "libraries", .list (paths.map .string)),
    (.string "definitions", .table given), (.string "elements", .list (shelfElements.map .table))]

theorem isGlossary_of_all {t : Table} (hdistinct : Table.Distinct t)
    (htables : (t.all fun e => match e.2 with
      | .table d => decide (Table.Distinct d)
      | _ => false) = true) : IsGlossary t := by
  refine ⟨hdistinct, fun e he => ?_⟩
  have hd := List.all_eq_true.mp htables e he
  split at hd
  · rename_i d hd'
    exact ⟨d, hd', of_decide_eq_true hd⟩
  · cases hd

theorem shelf_defines {path : String} (h : path ∈ ["a", "b", "c"]) : shelf.Defines path (shelved path) := by
  simp only [List.mem_cons, List.not_mem_nil, or_false] at h
  obtain rfl | rfl | rfl := h
  · exact ⟨isGlossary_of_all (by decide +kernel) (by decide +kernel), _, .table dotLibrary, rfl,
      Value.eq_ok_of_same (by decide +kernel), rfl⟩
  · exact ⟨isGlossary_of_all (by decide +kernel) (by decide +kernel), _, .table starLibrary, rfl,
      Value.eq_ok_of_same (by decide +kernel), rfl⟩
  · exact ⟨isGlossary_of_all (by decide +kernel) (by decide +kernel), _, .table colourLibrary, rfl,
      Value.eq_ok_of_same (by decide +kernel), rfl⟩

theorem shelf_describes {given : Table} {paths : List String} (hgiven : IsGlossary given)
    (hpaths : ∀ path ∈ paths, shelf.hasLibrary path = true → path ∈ ["a", "b", "c"]) :
    Describes shelf (shelfScene given paths) shelfElements given paths shelved where
  elements := rfl
  definitions := rfl
  libraries := rfl
  distinct := by decide +kernel
  glossary := hgiven
  defines path hpath hhas := shelf_defines (hpaths path hpath hhas)

theorem shelf_merges :
    (∃ result es', shelf.expandScene (.table (shelfScene (boxDefinition ++ pinDefinition) ["a", "b", "c"])) =
        .ok (.table result) ∧
      List.Forall₂ (Expanded (definition? (boxDefinition ++ pinDefinition)
        [dotLibrary, starLibrary, colourLibrary])) shelfElements es' ∧
      Table.field? result "elements" = some (.list (es'.map .table))) ∧
    shelf.expandScene (.table (shelfScene (pinDefinition ++ boxDefinition) ["a", "c"])) =
      shelf.expandScene (.table (shelfScene (boxDefinition ++ pinDefinition) ["a", "b", "c"])) ∧
    shelf.expandScene (.table (shelfScene [] ["a", "x", "b", "y"])) = .error (.libraryNotFound "x") := by
  have hgiven : IsGlossary (boxDefinition ++ pinDefinition) :=
    isGlossary_of_all (by decide +kernel) (by decide +kernel)
  have hgiven' : IsGlossary (pinDefinition ++ boxDefinition) :=
    isGlossary_of_all (by decide +kernel) (by decide +kernel)
  have hdescribes : Describes shelf (shelfScene (boxDefinition ++ pinDefinition) ["a", "b", "c"])
      shelfElements (boxDefinition ++ pinDefinition) ["a", "b", "c"] shelved :=
    shelf_describes hgiven (by decide +kernel)
  have hdescribes' : Describes shelf (shelfScene (pinDefinition ++ boxDefinition) ["a", "c"])
      shelfElements (pinDefinition ++ boxDefinition) ["a", "c"] shelved :=
    shelf_describes hgiven' (by decide +kernel)
  have hmissing : Describes shelf (shelfScene [] ["a", "x", "b", "y"]) shelfElements []
      ["a", "x", "b", "y"] shelved :=
    shelf_describes (isGlossary_of_all (by decide +kernel) rfl) (by decide +kernel)
  obtain ⟨-, hfound⟩ := expandScene_merges hdescribes
  obtain ⟨-, hmerged, hsame⟩ := hfound (by decide +kernel)
  refine ⟨?_, ?_, (expandScene_merges hmissing).1 "x" (by decide +kernel)⟩
  · obtain ⟨result, es', hresult, hes', helements, -⟩ := hmerged (by decide +kernel)
    exact ⟨result, es', hresult, hes', helements⟩
  · refine hsame shelf _ _ _ shelved hdescribes' (by decide +kernel) ?_ ⟨?_, ?_⟩
    · exact Value.eq_of_sameEntries _ _ (by decide +kernel)
    · exact .of_eq (Value.eq_of_sameEntries _ _ (by decide +kernel))
    · refine List.Forall₂.cons (.refl _) (.cons (.refl _) .nil)

/-- A scene with one element, which uses a list. -/
def listUse : Value :=
  .table [(.string "elements", .list [.table [(.string "use", .list [.string "a"])]])]

/-- What an element uses is in no table, and yet the definition is not said to be unknown. -/
theorem listUse_not_unknown_definition :
    definition? [] [] (.list [.string "a"]) = none ∧
      shelf.expandScene listUse = .error .wrongShape ∧
      shelf.expandScene listUse ≠ .error (.unknownDefinition (Value.list [.string "a"]).text) := by
  have hfails : shelf.expandScene listUse = .error .wrongShape := by rfl
  refine ⟨rfl, hfails, ?_⟩
  rw [hfails]
  nofun

end Workspace
end SvgDiagram

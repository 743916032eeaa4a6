import SvgDiagram.Proofs.Access.Cover
import SvgDiagram.Proofs.Files.Lexical

/-!
Entries that name a directory. A pattern without `*` admits the files below the directory that it leads to,
and no others: not those in a directory whose name only starts alike, and not those that a path reaches by
leaving the directory again. How a path is spelled makes no difference.
-/

namespace SvgDiagram
namespace Access

open Files (Place Path Host LeadsTo IsName)

/-- A pattern without `*` admits what is below the directory that it resolves to. -/
theorem admits_plain {working directory : Place} {pattern : String} (hstar : '*' ∉ pattern.toList)
    (hdirectory : (Path.ofString pattern).resolve working = .ok directory) (place : Place) :
    admits working (Path.ofPlace place) pattern = .ok (decide (directory <+: place.dropLast)) := by
  have hstar' : pattern.toList.contains '*' = false := by simpa using hstar
  have hprefix : (Path.ofPlace directory).components.isPrefixOf (Path.ofPlace place).parent.components =
      decide (directory <+: place.dropLast) := by
    rw [Bool.eq_iff_iff, List.isPrefixOf_iff_prefix, decide_eq_true_iff]
    exact List.cons_prefix_cons.trans (and_iff_right rfl)
  simp only [admits, admitsBy, hstar', Bool.false_eq_true, ite_false, hdirectory, Outcome.ok_bind,
    Outcome.pure_eq_ok, hprefix]

theorem star_mem_text_iff {p : Path} (h : ∀ n ∈ p.names, Files.IsPart n) :
    '*' ∈ p.text.toList ↔ ∃ n ∈ p.names, '*' ∈ n.toList := by
  rw [← Path.exists_mem_names_iff p.text (by decide) (by decide), Path.ofString_text h]

/-- An entry with a plain pattern admits what is below the place that the pattern leads to. -/
theorem entryAdmits_plain {host : Host} (hworking : ∀ n ∈ host.directory, IsName n)
    {kind pattern : String} {entry : Table} {pieces : List String} {directory : Place}
    (hpattern : Table.field? entry "path" = some (.string pattern))
    (hkinds : ((Table.field? entry "types").getD (.list [])).holds kind = .ok true)
    (hstar : '*' ∉ pattern.toList) (hnul : Char.ofNat 0 ∉ pattern.toList)
    (hstands : host.Stands pattern pieces) (hdirectory : LeadsTo pieces directory) (place : Place) :
    entryAdmits accepts host place kind (.table entry) =
      .ok (decide (directory <+: place.dropLast)) := by
  obtain ⟨p, hexpanded, hplain, hresolve⟩ := hstands.exists_expandHome hworking hstar hnul
  have hparts := Host.isPart_of_expandHome hexpanded
  have hstar' : '*' ∉ p.text.toList := by
    rw [star_mem_text_iff hparts]
    rintro ⟨n, hn, hmem⟩
    exact hplain n hn hmem
  have hresolved : (Path.ofString p.text).resolve host.directory = .ok directory := by
    rw [Path.ofString_text hparts]
    exact (hresolve directory).mpr hdirectory
  rw [entryAdmits_of_kinds hpattern hkinds hexpanded, if_pos rfl, admits_plain hstar' hresolved]

/-- Settings whose only entry has a pattern without `*` let a file be written exactly if the place that the
pattern leads to is one of the directories that hold the file. Both places are determined by the pieces of
the pattern and of the path, so all paths that lead to one place are answered alike. -/
theorem plain_entry_permits_iff_below {host : Host} (hworking : ∀ n ∈ host.directory, IsName n)
    {settings output : Value} {entry : Table} {kind pattern path : String} {pieces : List String}
    (houtput : settings.part "file_output" = .ok output)
    (hallowed : output.part "allowed" = .ok (.list [.table entry]))
    (hpattern : Table.field? entry "path" = some (.string pattern))
    (hkinds : ((Table.field? entry "types").getD (.list [])).holds kind = .ok true)
    (hstar : '*' ∉ pattern.toList) (hnul : Char.ofNat 0 ∉ pattern.toList)
    (hstands : host.Stands pattern pieces) (hpath : Char.ofNat 0 ∉ path.toList) :
    ∃ directory place, (∀ d, LeadsTo pieces d ↔ d = directory) ∧
      (∀ p, LeadsTo (Files.fromRoot host.directory path) p ↔ p = place) ∧
      permits host settings (.string path) kind = .ok (decide (directory <+: place.dropLast)) ∧
      ∀ other : String, Char.ofNat 0 ∉ other.toList →
        LeadsTo (Files.fromRoot host.directory other) place →
        permits host settings (.string other) kind = permits host settings (.string path) kind := by
  have hanswer (text : String) (place : Place) (htext : Char.ofNat 0 ∉ text.toList)
      (hplace : LeadsTo (Files.fromRoot host.directory text) place) :
      permits host settings (.string text) kind =
        .ok (decide (Files.follow pieces <+: place.dropLast)) := by
    have hresolved := (Path.resolve_ofString_iff hworking text place).mpr ⟨htext, hplace⟩
    have hentry := entryAdmits_plain hworking hpattern hkinds hstar hnul hstands
      (Files.leadsTo_follow pieces) place
    simp only [permits_of_entries houtput hallowed rfl, List.isEmpty_cons, Bool.false_eq_true, ite_false,
      Path.ofValue, Outcome.ok_bind, hresolved, someAdmits_singleton, hentry]
  have hplace := Files.leadsTo_follow (Files.fromRoot host.directory path)
  refine ⟨Files.follow pieces, _, fun _ => Files.leadsTo_iff, fun _ => Files.leadsTo_iff,
    hanswer path _ hpath hplace, ?_⟩
  intro other hother hsame
  rw [hanswer other _ hother hsame, hanswer path _ hpath hplace]

/-- One directory below the home directory, spelled with more steps than it needs. -/
def diagramsEntry : Table :=
  [(.string "path", .string "~/old/.././diagrams//"), (.string "types", .list [.string "svg"])]

def diagramsOutput : Value := .table [(.string "allowed", .list [.table diagramsEntry])]

def diagramsSettings : Value := .table [(.string "file_output", diagramsOutput)]

/-- Neither a longer name nor a step upwards gets out of the directory, and a path that starts in the
working directory gets in. -/
theorem diagramsSettings_permits :
    permits ⟨["work"], "/home/ann", []⟩ diagramsSettings (.string "..//home/ann/diagrams/./f") "svg" =
        .ok true ∧
      permits ⟨["work"], "/home/ann", []⟩ diagramsSettings (.string "/home/ann/diagrams-x/f") "svg" =
        .ok false ∧
      permits ⟨["work"], "/home/ann", []⟩ diagramsSettings (.string "/home/ann/diagrams/../f") "svg" =
        .ok false := by
  have hworking : ∀ n ∈ ["work"], IsName n := by decide
  have hstands : Host.Stands ⟨["work"], "/home/ann", []⟩ "~/old/.././diagrams//" _ :=
    .home (by decide) (show _ = ("~" ++ "") :: ["old", "..", "diagrams"] by decide) rfl (by decide)
      (by decide)
  have houtput : diagramsSettings.part "file_output" = .ok diagramsOutput := rfl
  have hallowed : diagramsOutput.part "allowed" = .ok (.list [.table diagramsEntry]) := rfl
  have hkinds : ((Table.field? diagramsEntry "types").getD (.list [])).holds "svg" = .ok true := rfl
  have hanswer (path : String) (hpath : Char.ofNat 0 ∉ path.toList) :=
    plain_entry_permits_iff_below hworking houtput hallowed rfl hkinds (by decide) (by decide) hstands hpath
  have hat (path : String) (hpath : Char.ofNat 0 ∉ path.toList) (place : Place)
      (hplace : place = Files.follow (Files.fromRoot ["work"] path)) :
      permits ⟨["work"], "/home/ann", []⟩ diagramsSettings (.string path) "svg" =
        .ok (decide (["home", "ann", "diagrams"] <+: place.dropLast)) := by
    obtain ⟨directory, place', hdirectory, hplace', hpermits, -⟩ := hanswer path hpath
    obtain rfl := (hdirectory ["home", "ann", "diagrams"]).mp (Files.leadsTo_iff.mpr (by decide))
    obtain rfl := (hplace' place).mp (Files.leadsTo_iff.mpr hplace)
    exact hpermits
  exact ⟨hat _ (by decide) ["home", "ann", "diagrams", "f"] (by decide),
    hat _ (by decide) ["home", "ann", "diagrams-x", "f"] (by decide),
    hat _ (by decide) ["home", "ann", "f"] (by decide)⟩

end Access
end SvgDiagram

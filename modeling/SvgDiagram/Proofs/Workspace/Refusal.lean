import SvgDiagram.Proofs.Access.Cover
import SvgDiagram.Proofs.Files.Lexical
import SvgDiagram.Proofs.Workspace.Permission
import SvgDiagram.Proofs.Yaml.Keys

/-!
Nothing may be written unless an entry of the settings says so. Whatever value the settings are loaded from,
a permission comes from an entry in a sequence under `allowed` in a table under `file_output`, and all
entries before it could be asked. Where all entries can be asked, only the set of them counts.
-/

namespace SvgDiagram
namespace Access

open Files (Place Path Host)

/-- What was loaded is a value that has a sequence of entries where settings are looked for. -/
inductive Lists : Except Fault (Option Value) → List Value → Prop
  | intro {root output : Table} {listed : Value} {entries : List Value}
      (file_output : Table.field? root "file_output" = some (.table output))
      (allowed : Table.field? output "allowed" = some listed)
      (sequence : sequence? listed = some entries) : Lists (.ok (some (.table root))) entries

/-- An entry of a list admits a file, and none of those before it makes the question fail. -/
def Admitted (host : Host) (entries : List Value) (path : Value) (kind : String) : Prop :=
  ∃ spelled place k entry, path = .string spelled ∧
    (Path.ofString spelled).resolve host.directory = .ok place ∧ entries[k]? = some entry ∧
    (∀ e ∈ entries.take k, ∃ b, entryAdmits accepts host place kind e = .ok b) ∧
    EntryCovers host kind place.dropLast entry

/-- An entry with a text as its path, which can be expanded and resolved, and with a list of kinds. -/
inductive Readable (host : Host) : Value → Prop
  | intro {t : Table} {text : String} {kinds : List Value} {p : Path} {place : Place}
      (named : Table.field? t "path" = some (.string text))
      (kinds : Table.field? t "types" = some (.list kinds))
      (expanded : host.expandHome (Path.ofString text) = .ok p)
      (resolved : p.resolve host.directory = .ok place) : Readable host (.table t)

section
variable {host : Host} {loaded : Except Fault (Option Value)} {entries : List Value}

theorem Lists.unique {entries' : List Value} (h : Lists loaded entries) (h' : Lists loaded entries') :
    entries = entries' := by
  obtain @⟨root, output, listed, entries, file_output, allowed, sequence⟩ := h
  obtain @⟨_, output', listed', _, file_output', allowed', sequence'⟩ := h'
  rw [file_output] at file_output'
  cases file_output'
  rw [allowed] at allowed'
  cases allowed'
  rw [sequence] at sequence'
  exact Option.some.inj sequence'

/-- Settings that list entries are taken as they stand. -/
theorem Lists.parts (h : Lists loaded entries) :
    ∃ settings output listed, loaded >>= ofLoaded = .ok settings ∧
      settings.part "file_output" = .ok output ∧ output.part "allowed" = .ok listed ∧
      sequence? listed = some entries := by
  obtain @⟨root, output, listed, entries, file_output, allowed, sequence⟩ := h
  have hheld : (Value.table output).holds "allowed" = .ok true := by
    rw [Value.holds, Table.contains_string, allowed]
    rfl
  refine ⟨.table root, .table output, listed, ?_, ?_, ?_, sequence⟩
  · simp only [Outcome.ok_bind, ofLoaded, normalise, file_output, Option.getD_some, withEntries, hheld,
      ite_true, Outcome.pure_eq_ok, Table.setField_eq_self file_output]
  · exact Value.part_eq_ok.mpr ⟨root, rfl, file_output⟩
  · exact Value.part_eq_ok.mpr ⟨output, rfl, allowed⟩

/-- A list that is filled in has no entries. -/
theorem withEntries_cases {output output' : Value} (h : withEntries output = .ok output') :
    output' = output ∨ output'.part "allowed" = .ok (.list []) := by
  simp only [withEntries, Outcome.bind_eq_ok] at h
  obtain ⟨held, -, h⟩ := h
  cases held with
  | true => exact .inl (Except.ok.inj h).symm
  | false =>
      cases output with
      | table t =>
          cases h
          exact .inr (Value.part_eq_ok.mpr ⟨_, rfl, by simp [Table.field?_setField]⟩)
      | _ => cases h

theorem normalise_cases {v settings : Value} (h : normalise v = .ok settings) :
    ∃ t output, (v = .table t ∨ t = []) ∧
      withEntries ((Table.field? t "file_output").getD noEntries) = .ok output ∧
      settings.part "file_output" = .ok output := by
  simp only [normalise, Outcome.bind_eq_ok, Outcome.pure_eq_ok, Except.ok.injEq] at h
  obtain ⟨output, houtput, rfl⟩ := h
  refine ⟨_, output, ?_, houtput, Value.part_eq_ok.mpr ⟨_, rfl, by simp [Table.field?_setField]⟩⟩
  split
  · exact .inl rfl
  · exact .inr rfl

/-- Only a sequence has tables among what a pass over it meets, if keys are what they may be. -/
theorem sequence?_of_items {v : Value} (hv : v.Keyed) {items : List Value} (h : v.items = .ok items)
    {t : Table} (ht : .table t ∈ items) : sequence? v = some items := by
  cases v with
  | list vs | pair a b =>
      cases h
      rfl
  | string s | bytes data =>
      cases h
      simp at ht
  | set vs =>
      cases h
      cases hv with
      | plain hkey => cases hkey
      | set hkeys => cases hkeys _ ht
  | table u =>
      cases h
      obtain ⟨e, he, heq⟩ := List.mem_map.mp ht
      have hkey := (Value.keyed_table_iff.mp hv e he).1
      rw [heq] at hkey
      cases hkey
  | _ => cases h

/-- Settings that allow anything list the entries that they allow it by. -/
theorem lists_of_allows {v settings : Value} (hv : v.Keyed) (hsettings : normalise v = .ok settings)
    {kind : String} {directory : Place} (h : Allows host settings kind directory) :
    ∃ entries, Lists (.ok (some v)) entries := by
  obtain ⟨output, allowed, listed, houtput, hallowed, hlisted, entry, hentry, hcovers⟩ := h
  obtain ⟨t, output', ht, houtput', hpart⟩ := normalise_cases hsettings
  obtain rfl : output' = output := Except.ok.inj (hpart.symm.trans houtput)
  -- Nothing comes from a list that was filled in.
  have hgiven : output'.part "allowed" ≠ .ok (.list []) := by
    intro hempty
    cases hallowed.symm.trans hempty
    cases hlisted
    cases hentry
  obtain rfl := (withEntries_cases houtput').resolve_right hgiven
  cases hfield : Table.field? t "file_output" with
  | none =>
      rw [hfield] at hgiven
      exact absurd rfl hgiven
  | some output =>
      rw [hfield, Option.getD_some] at hallowed
      obtain ⟨table, rfl, hlist⟩ := Value.part_eq_ok.mp hallowed
      obtain rfl : v = .table t := by
        refine ht.resolve_right ?_
        rintro rfl
        cases hfield
      have hkeyed := (Value.keyed_table_iff.mp hv).field? hfield
      have hkeyed' := (Value.keyed_table_iff.mp hkeyed).field? hlist
      cases hcovers
      exact ⟨listed, .intro hfield hlist (sequence?_of_items hkeyed' hlisted hentry)⟩

theorem lists_of_permits (hloaded : ∀ v, loaded = .ok (some v) → v.Keyed) {settings path : Value}
    {kind : String} (hsettings : loaded >>= ofLoaded = .ok settings)
    (h : permits host settings path kind = .ok true) : ∃ entries, Lists loaded entries := by
  obtain ⟨spelled, place, -, -, hallows⟩ := allows_of_permits h
  obtain ⟨found, rfl, hsettings⟩ := Outcome.bind_eq_ok.mp hsettings
  cases found with
  | none =>
      cases hsettings
      obtain ⟨output, allowed, listed, houtput, hallowed, hlisted, entry, hentry, -⟩ := hallows
      cases houtput
      cases hallowed
      cases hlisted
      cases hentry
  | some v => exact lists_of_allows (hloaded v rfl) hsettings hallows

/-- Entries admit a file at a place exactly if one of them does, and those before it can be asked. -/
theorem someAdmits_iff_index (place : Place) (kind : String) (entries : List Value) :
    someAdmits accepts host place kind entries = .ok true ↔
      ∃ k entry, entries[k]? = some entry ∧
        (∀ e ∈ entries.take k, ∃ b, entryAdmits accepts host place kind e = .ok b) ∧
        EntryCovers host kind place.dropLast entry := by
  constructor
  · intro h
    obtain ⟨earlier, entry, later, rfl, hearlier, hentry⟩ := (someAdmits_iff _ _ _ _).mp h
    refine ⟨earlier.length, entry, by simp, ?_, hentry⟩
    rw [List.take_left]
    exact fun e he => ⟨false, hearlier e he⟩
  · rintro ⟨k, entry, hk, hbefore, hentry⟩
    induction entries generalizing k with
    | nil => simp at hk
    | cons e rest ih =>
        simp only [someAdmits, Outcome.bind_eq_ok]
        cases k with
        | zero =>
            obtain rfl : e = entry := by simpa using hk
            exact ⟨true, (entryAdmits_iff _ _ _ _).mpr hentry, rfl⟩
        | succ k =>
            rw [List.take_succ_cons, List.forall_mem_cons] at hbefore
            obtain ⟨⟨admitted, hadmitted⟩, hbefore⟩ := hbefore
            refine ⟨admitted, hadmitted, ?_⟩
            cases admitted with
            | true => rfl
            | false => exact ih k (by simpa using hk) hbefore

/-- What is asked of settings that list entries is asked of the entries, if there are any. -/
theorem Lists.answer_eq (h : Lists loaded entries) (path : Value) (kind : String) :
    (loaded >>= ofLoaded >>= fun settings => permits host settings path kind) =
      if entries.isEmpty then .ok false
      else Path.ofValue path >>= fun p => p.resolve host.directory >>= fun place =>
        someAdmits accepts host place kind entries := by
  obtain ⟨settings, output, listed, hsettings, houtput, hallowed, hsequence⟩ := h.parts
  rw [hsettings, Outcome.ok_bind, permits_of_entries houtput hallowed hsequence]

theorem Lists.answer_at (h : Lists loaded entries) (kind : String) {spelled : String} {place : Place}
    (hplace : (Path.ofString spelled).resolve host.directory = .ok place) :
    (loaded >>= ofLoaded >>= fun settings => permits host settings (.string spelled) kind) =
      someAdmits accepts host place kind entries := by
  rw [h.answer_eq, Path.ofValue, Outcome.ok_bind, hplace, Outcome.ok_bind]
  cases entries with
  | nil => rfl
  | cons _ _ => rfl

theorem Lists.answer_iff (h : Lists loaded entries) (path : Value) (kind : String) :
    (loaded >>= ofLoaded >>= fun settings => permits host settings path kind) = .ok true ↔
      ∃ spelled place, path = .string spelled ∧
        (Path.ofString spelled).resolve host.directory = .ok place ∧
        someAdmits accepts host place kind entries = .ok true := by
  constructor
  · intro hyes
    rw [h.answer_eq] at hyes
    split at hyes
    · cases hyes
    · simp only [Outcome.bind_eq_ok, Path.ofValue_eq_ok] at hyes
      obtain ⟨_, ⟨spelled, rfl, rfl⟩, place, hplace, hyes⟩ := hyes
      exact ⟨spelled, place, rfl, hplace, hyes⟩
  · rintro ⟨spelled, place, rfl, hplace, hyes⟩
    rw [h.answer_at kind hplace, hyes]

theorem Readable.exists_entryAdmits {entry : Value} (h : Readable host entry) (place : Place)
    (kind : String) : ∃ b, entryAdmits accepts host place kind entry = .ok b := by
  obtain @⟨t, text, kinds, p, directory, named, hkinds, expanded, resolved⟩ := h
  have hheld : ((Table.field? t "types").getD (.list [])).holds kind =
      .ok (kinds.any fun w => w.sameKey (.string kind)) := by
    rw [hkinds]
    rfl
  rw [entryAdmits_of_kinds named hheld expanded]
  split
  · rw [← Path.ofString_text (Host.isPart_of_expandHome expanded)] at resolved
    simp only [admits, admitsBy, resolved, Outcome.ok_bind, Outcome.pure_eq_ok]
    split
    · exact ⟨_, rfl⟩
    · exact ⟨_, rfl⟩
  · exact ⟨false, rfl⟩

/-- Entries that can all be asked have an answer, and it is yes exactly if one of them covers the
directory. -/
theorem exists_someAdmits {place : Place} {kind : String}
    (h : ∀ e ∈ entries, ∃ b, entryAdmits accepts host place kind e = .ok b) :
    ∃ b, someAdmits accepts host place kind entries = .ok b ∧
      (b = true ↔ ∃ e ∈ entries, EntryCovers host kind place.dropLast e) := by
  have hanswer : ∃ b, someAdmits accepts host place kind entries = .ok b := by
    induction entries with
    | nil => exact ⟨false, rfl⟩
    | cons e rest ih =>
        rw [List.forall_mem_cons] at h
        obtain ⟨⟨admitted, hadmitted⟩, hrest⟩ := h
        simp only [someAdmits, hadmitted, Outcome.ok_bind]
        cases admitted with
        | true => exact ⟨true, rfl⟩
        | false => exact ih hrest
  obtain ⟨b, hb⟩ := hanswer
  refine ⟨b, hb, ?_⟩
  have hyes : someAdmits accepts host place kind entries = .ok true ↔ _ :=
    someAdmits_iff_index place kind entries
  rw [hb, Except.ok.injEq] at hyes
  rw [hyes]
  constructor
  · rintro ⟨k, entry, hk, -, hentry⟩
    exact ⟨entry, List.mem_of_getElem? hk, hentry⟩
  · rintro ⟨entry, hmem, hentry⟩
    obtain ⟨k, hk⟩ := List.getElem?_of_mem hmem
    exact ⟨k, entry, hk, fun e he => h e (List.mem_of_mem_take he), hentry⟩

/-- Entries that can all be asked give the answers of any other list of the same entries, and more entries
take back no yes. -/
theorem someAdmits_mono {more : List Value} (hentries : ∀ e ∈ entries, Readable host e)
    (hmore : ∀ e ∈ more, Readable host e) (place : Place) (kind : String) :
    ((∀ e ∈ entries, e ∈ more) → someAdmits accepts host place kind entries = .ok true →
      someAdmits accepts host place kind more = .ok true) ∧
    ((∀ e, e ∈ more ↔ e ∈ entries) →
      someAdmits accepts host place kind more = someAdmits accepts host place kind entries) := by
  obtain ⟨b, hb, hyes⟩ := exists_someAdmits fun e he => (hentries e he).exists_entryAdmits place kind
  obtain ⟨b', hb', hyes'⟩ := exists_someAdmits fun e he => (hmore e he).exists_entryAdmits place kind
  rw [hb, hb', Except.ok.injEq, Except.ok.injEq, Except.ok.injEq]
  constructor
  · intro hsub h
    obtain ⟨e, he, hcovers⟩ := hyes.mp h
    exact hyes'.mpr ⟨e, hsub e he, hcovers⟩
  · intro hsame
    rw [Bool.eq_iff_iff, hyes, hyes']
    simp only [hsame]

end

end Access

namespace Workspace

open Access (Lists Admitted Readable EntryCovers)
open Files (Path)

/-- What the file of the settings holds, if there is one. -/
def settingsLoaded (w : Workspace) : Except Fault (Option Value) := do
  match ← w.settingsFound with
  | none => return none
  | some text => return some (← Yaml.load text)

theorem inForce_eq_settingsLoaded {w : Workspace} (h : w.settings = none) :
    w.inForce = w.settingsLoaded >>= Access.ofLoaded := by
  rw [inForce_of_none h, settingsLoaded, bind_assoc]
  congr 1
  funext found
  cases found with
  | none => rfl
  | some text => simp [Access.ofText]

theorem keyed_settingsLoaded {w : Workspace} (v : Value) (h : w.settingsLoaded = .ok (some v)) :
    v.Keyed := by
  obtain ⟨found, -, hfound⟩ := Outcome.bind_eq_ok.mp h
  cases found with
  | none => cases hfound
  | some text =>
      obtain ⟨u, hu, heq⟩ := Outcome.bind_eq_ok.mp hfound
      cases heq
      exact Yaml.keyed_load hu

/-- A question about permissions fails closed, whatever the settings were loaded from, if keys are what they
may be: the answer is yes exactly if a value was loaded that has a sequence of entries, one of which admits
the file, and none before that one makes the question fail. If all entries can be asked, there is an answer, and
it is yes exactly if some entry covers the directory of the file. Other settings with the same entries, in
any order and any number, then give the same answer, and settings with more entries take back no
permission. -/
theorem isPermitted_fails_closed {w : Workspace} {loaded : Except Fault (Option Value)}
    (hw : w.inForce = loaded >>= Access.ofLoaded) (hloaded : ∀ v, loaded = .ok (some v) → v.Keyed)
    (path : Value) (kind : String) :
    ((outcome (isPermitted path kind) w).1 = .ok true ↔
      ∃ entries, Lists loaded entries ∧ Admitted w.host entries path kind) ∧
    ∀ entries, Lists loaded entries → (∀ e ∈ entries, Readable w.host e) →
      (∀ spelled place, path = .string spelled →
        (Path.ofString spelled).resolve w.host.directory = .ok place →
        ∃ b, (outcome (isPermitted path kind) w).1 = .ok b ∧
          (b = true ↔ ∃ e ∈ entries, EntryCovers w.host kind place.dropLast e)) ∧
      ∀ (w' : Workspace) loaded' more, w'.host = w.host → w'.inForce = loaded' >>= Access.ofLoaded →
        Lists loaded' more → (∀ e ∈ more, Readable w.host e) →
        ((∀ e, e ∈ more ↔ e ∈ entries) →
          (outcome (isPermitted path kind) w').1 = (outcome (isPermitted path kind) w).1) ∧
        ((∀ e ∈ entries, e ∈ more) → (outcome (isPermitted path kind) w).1 = .ok true →
          (outcome (isPermitted path kind) w').1 = .ok true) := by
  simp only [outcome_isPermitted, hw]
  refine ⟨⟨?_, ?_⟩, fun entries hlists hreadable => ⟨?_, ?_⟩⟩
  · intro h
    obtain ⟨settings, hsettings, hpermits⟩ := Outcome.bind_eq_ok.mp h
    obtain ⟨entries, hlists⟩ := Access.lists_of_permits hloaded hsettings hpermits
    obtain ⟨spelled, place, rfl, hplace, hyes⟩ := (hlists.answer_iff path kind).mp h
    obtain ⟨k, entry, hentry⟩ := (Access.someAdmits_iff_index _ _ _).mp hyes
    exact ⟨entries, hlists, spelled, place, k, entry, rfl, hplace, hentry⟩
  · rintro ⟨entries, hlists, spelled, place, k, entry, rfl, hplace, hentry⟩
    rw [hlists.answer_at kind hplace]
    exact (Access.someAdmits_iff_index _ _ _).mpr ⟨k, entry, hentry⟩
  · rintro spelled place rfl hplace
    rw [hlists.answer_at kind hplace]
    exact Access.exists_someAdmits fun e he => (hreadable e he).exists_entryAdmits place kind
  · intro w' loaded' more hhost hw' hmore hreadable'
    simp only [hhost, hw']
    constructor
    · intro hsame
      have hempty : more.isEmpty = entries.isEmpty := by
        rw [Bool.eq_iff_iff, List.isEmpty_iff, List.isEmpty_iff, List.eq_nil_iff_forall_not_mem,
          List.eq_nil_iff_forall_not_mem]
        simp only [hsame]
      simp only [hmore.answer_eq, hlists.answer_eq, hempty,
        (Access.someAdmits_mono hreadable hreadable' _ kind).2 hsame]
    · intro hsub hyes
      obtain ⟨spelled, place, rfl, hplace, hyes⟩ := (hlists.answer_iff path kind).mp hyes
      rw [hmore.answer_at kind hplace]
      exact (Access.someAdmits_mono hreadable hreadable' place kind).1 hsub hyes

/-- An entry for the home directory and one with a wildcard. -/
def publicText : String :=
  "file_output:\n  allowed:\n  - path: ~/out\n    types: [png]\n" ++
    "  - path: /srv/**\n    types: [png, svg]\n"

def publicEntries : List Value :=
  [.table [(.string "path", .string "~/out"), (.string "types", .list [.string "png"])],
    .table [(.string "path", .string "/srv/**"),
      (.string "types", .list [.string "png", .string "svg"])]]

/-- The same entries, the other way round and one of them twice. -/
def turnedText : String :=
  "file_output:\n  allowed:\n  - &any\n    path: /srv/**\n    types: [png, svg]\n" ++
    "  - path: ~/out\n    types: [png]\n  - *any\n"

def turnedEntries : List Value := publicEntries.reverse ++ publicEntries.tail

def settingsOf (entries : List Value) : Value :=
  .table [(.string "file_output", .table [(.string "allowed", .list entries)])]

theorem readable_publicEntries :
    ∀ e ∈ publicEntries, Readable ⟨["work"], "/home/ann", []⟩ e := by
  intro e he
  rw [publicEntries, List.mem_cons, List.mem_singleton] at he
  obtain rfl | rfl := he
  · exact .intro (p := Path.ofPlace ["home", "ann", "out"]) rfl rfl rfl rfl
  · exact .intro (p := Path.ofPlace ["srv", "**"]) rfl rfl rfl rfl

/-- A workspace that has not read its settings yet. -/
def unread (text : String) : Workspace := (empty ⟨["work"], "/home/ann", []⟩ .plain).withSettings text

theorem settingsFound_unread (text : String) : (unread text).settingsFound = .ok (some text) := rfl

theorem lists_unread {text : String} {entries : List Value}
    (h : Yaml.load text = .ok (settingsOf entries)) : Lists (unread text).settingsLoaded entries := by
  have hloaded : (unread text).settingsLoaded = .ok (some (settingsOf entries)) := by
    simp [settingsLoaded, settingsFound_unread, h]
  rw [hloaded]
  exact .intro rfl rfl rfl

/-- A day in the place of a path, and a set of kinds. -/
def datedText : String :=
  "file_output:\n  allowed:\n  - path: 2026-01-18\n    types: [png]\n" ++
    "  - path: /srv/**\n    types: !!set {png, svg}\n"

def datedEntries : List Value :=
  [.table [(.string "path", .moment ⟨⟨2026, 1, 18⟩, none⟩), (.string "types", .list [.string "png"])],
    .table [(.string "path", .string "/srv/**"),
      (.string "types", .set [.string "png", .string "svg"])]]

theorem publicText_permits :
    (outcome (isPermitted (.string "../srv/a/f.svg") "svg") (unread publicText)).1 = .ok true ∧
      (outcome (isPermitted (.string "../srv/a/f.svg") "svg") (unread turnedText)).1 = .ok true ∧
      (outcome (isPermitted (.string "/srv/f.svg") "svg") (unread datedText)).1 = .ok true ∧
      (outcome (isPermitted (.string "/srv/f.png") "png") (unread datedText)).1 ≠ .ok true := by
  have hpublic : Yaml.load publicText = .ok (settingsOf publicEntries) :=
    Value.eq_ok_of_same (by decide +kernel)
  have hturned : Yaml.load turnedText = .ok (settingsOf turnedEntries) :=
    Value.eq_ok_of_same (by decide +kernel)
  have hdated : Yaml.load datedText = .ok (settingsOf datedEntries) :=
    Value.eq_ok_of_same (by decide +kernel)
  have hinForce (text : String) : (unread text).inForce = (unread text).settingsLoaded >>= Access.ofLoaded :=
    inForce_eq_settingsLoaded rfl
  have hsame : ∀ e, e ∈ turnedEntries ↔ e ∈ publicEntries := by
    simp [turnedEntries, publicEntries, or_comm]
  have hreadable : ∀ e ∈ turnedEntries, Readable (unread publicText).host e :=
    fun e he => readable_publicEntries e ((hsame e).mp he)
  obtain ⟨-, hanswers⟩ := isPermitted_fails_closed (hinForce publicText) keyed_settingsLoaded
    (.string "../srv/a/f.svg") "svg"
  obtain ⟨hanswer, hother⟩ := hanswers publicEntries (lists_unread hpublic) readable_publicEntries
  obtain ⟨b, hb, hcovers⟩ := hanswer "../srv/a/f.svg" ["srv", "a", "f.svg"] rfl rfl
  have hyes : b = true := by
    refine hcovers.mpr ⟨_, List.mem_cons_of_mem _ List.mem_cons_self, ?_⟩
    exact (Access.entryAdmits_iff _ ["srv", "a", "f.svg"] _ _).mp (by decide +kernel)
  rw [hyes] at hb
  obtain ⟨hequal, -⟩ := hother (unread turnedText) _ turnedEntries rfl (hinForce turnedText)
    (lists_unread hturned) hreadable
  obtain ⟨hset, -⟩ := isPermitted_fails_closed (hinForce datedText) keyed_settingsLoaded
    (.string "/srv/f.svg") "svg"
  obtain ⟨hday, -⟩ := isPermitted_fails_closed (hinForce datedText) keyed_settingsLoaded
    (.string "/srv/f.png") "png"
  refine ⟨hb, (hequal hsame).trans hb, hset.mpr ?_, fun hpng => ?_⟩
  · refine ⟨datedEntries, lists_unread hdated, "/srv/f.svg", ["srv", "f.svg"], 1, _, rfl, rfl, rfl, ?_, ?_⟩
    · exact List.forall_mem_singleton.mpr ⟨false, rfl⟩
    · exact (Access.entryAdmits_iff _ ["srv", "f.svg"] _ _).mp (by decide +kernel)
  · -- The day is asked first, and is no path.
    obtain ⟨entries, hlists, spelled, place, k, entry, -, -, hentry, hbefore, hcovers⟩ := hday.mp hpng
    obtain rfl := hlists.unique (lists_unread hdated)
    cases k with
    | zero =>
        cases hentry
        cases hcovers with
        | intro named _ _ _ => cases named
    | succ k =>
        obtain ⟨b, hb⟩ := hbefore _ List.mem_cons_self
        cases hb

end Workspace
end SvgDiagram

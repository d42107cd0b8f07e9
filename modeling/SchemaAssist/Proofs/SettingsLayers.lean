/-
# SchemaAssist.Proofs.SettingsLayers — settings are layered like tables

Entries can be laid over others key by key, and tables of settings section by section
(`overlaid`).  A field of the outcome is that of the upper table, or else that of the lower one
(`fieldOf_overlaid`), so what the outcome sets is what the upper table sets over what the lower
one sets (`Sets.overlaid`).

Therefore layers are laid one over another in two ways with the same outcome
(`override_overlaid`): the settings of one table over those of another, or one table over the
other and then its settings over the base.  The settings file and the table of an editor are two
such layers.
-/
import SchemaAssist.Settings.File
import SchemaAssist.Proofs.Settings.Changes

namespace SchemaAssist

set_option autoImplicit false

/-! ## Tables over tables -/

/-- Entries laid over others: a key of both has its values merged, at the place of the lower
one, and further keys follow. -/
def laidOver (merge : Data → Data → Data) (upper lower : Entries) : Entries :=
  lower.map (fun entry =>
      (entry.1, ((upper.lookup entry.1).map (merge · entry.2)).getD entry.2)) ++
    upper.filter fun entry => (lower.lookup entry.1).isNone

/-- A section laid over another: of two tables each key counts, and else the upper one does. -/
def Data.laidOver : Data → Data → Data
  | .table upper, .table lower => .table (SchemaAssist.laidOver (fun value _ => value) upper lower)
  | upper, _ => upper

def overlaid (upper lower : Entries) : Entries := laidOver Data.laidOver upper lower

theorem lookup_map_values (value : String → Data → Data) (entries : Entries) (key : String) :
    (entries.map fun entry => (entry.1, value entry.1 entry.2)).lookup key =
      (entries.lookup key).map (value key) := by
  induction entries with
  | nil => rfl
  | cons entry entries ih =>
      obtain ⟨name, stored⟩ := entry
      rw [List.map_cons, List.lookup_cons, List.lookup_cons]
      by_cases here : key = name
      · simp [here]
      · rw [beq_false_of_ne here]
        exact ih

theorem lookup_filter_keys (keep : String → Bool) (entries : Entries) (key : String) :
    (entries.filter fun entry => keep entry.1).lookup key =
      if keep key then entries.lookup key else none := by
  induction entries with
  | nil => simp
  | cons entry entries ih =>
      obtain ⟨name, stored⟩ := entry
      rw [List.filter_cons, List.lookup_cons]
      by_cases here : key = name
      · subst here
        by_cases kept : keep key = true
        · simp [kept]
        · simp [kept, ih]
      · rw [beq_false_of_ne here]
        split
        · rw [List.lookup_cons, beq_false_of_ne here, ih]
        · exact ih

theorem lookup_laidOver (merge : Data → Data → Data) (upper lower : Entries) (key : String) :
    (laidOver merge upper lower).lookup key =
      Option.merge merge (upper.lookup key) (lower.lookup key) := by
  have below := lookup_map_values
    (fun key value => ((upper.lookup key).map (merge · value)).getD value) lower key
  have above := lookup_filter_keys (fun key => (lower.lookup key).isNone) upper key
  rw [laidOver, List.lookup_append, below, above]
  cases upper.lookup key <;> cases lower.lookup key <;> rfl

theorem SectionsAreTables.overlaid {upper lower : Entries} (tables : SectionsAreTables upper)
    (tables' : SectionsAreTables lower) : SectionsAreTables (overlaid upper lower) := by
  intro name isRead
  have above := tables name isRead
  have below := tables' name isRead
  rw [SchemaAssist.overlaid, lookup_laidOver]
  cases there : upper.lookup name with
  | none =>
      rw [Option.merge_none_left]
      exact below
  | some part =>
      obtain ⟨fields, rfl⟩ := tables.exists_fields isRead there
      cases there' : lower.lookup name with
      | none => rfl
      | some part =>
          obtain ⟨fields', rfl⟩ := tables'.exists_fields isRead there'
          rfl

/-- A field of tables laid over one another is that of the upper table, or else that of the
lower one. -/
theorem fieldOf_overlaid {upper lower : Entries} (tables : SectionsAreTables upper)
    (tables' : SectionsAreTables lower) {name : String} (isRead : name ∈ ["server", "completion"])
    (key : String) :
    fieldOf (overlaid upper lower) name key =
      (fieldOf upper name key).or (fieldOf lower name key) := by
  rw [fieldOf, fieldOf, fieldOf, overlaid, lookup_laidOver]
  cases above : upper.lookup name with
  | none => cases lower.lookup name <;> simp [Option.merge]
  | some value =>
      obtain ⟨fields, rfl⟩ := tables.exists_fields isRead above
      cases below : lower.lookup name with
      | none => simp [Option.merge]
      | some value =>
          obtain ⟨fields', rfl⟩ := tables'.exists_fields isRead below
          show (laidOver _ fields fields').lookup key = (fields.lookup key).or (fields'.lookup key)
          rw [lookup_laidOver]
          cases fields.lookup key <;> cases fields'.lookup key <;> rfl

/-! ## Changes of tables over tables -/

theorem rel_or {α β : Type} {Means : α → β → Prop} {upper lower : Option α}
    {above below : Option β} (meant : Option.Rel Means upper above)
    (meant' : Option.Rel Means lower below) :
    Option.Rel Means (upper.or lower) (above.or below) := by
  cases meant with
  | none => simpa using meant'
  | some meant => exact .some meant

/-- **What a table over another sets** is what the one sets over what the other sets. -/
theorem Sets.overlaid {upper lower : Entries} {above below : Change} (sets : Sets upper above)
    (sets' : Sets lower below) (tables : SectionsAreTables upper)
    (tables' : SectionsAreTables lower) : Sets (overlaid upper lower) (above.atop below) := by
  obtain ⟨generator, enumless, level⟩ := tables.sets_iff.1 sets
  obtain ⟨generator', enumless', level'⟩ := tables'.sets_iff.1 sets'
  rw [(tables.overlaid tables').sets_iff, fieldOf_overlaid tables tables' (by decide),
    fieldOf_overlaid tables tables' (by decide), fieldOf_overlaid tables tables' (by decide)]
  exact ⟨rel_or generator generator', rel_or enumless enumless', rel_or level level'⟩

def SettingsApart (first second : Entries) : Prop :=
  ∀ place ∈ [("completion", generatorKey), ("completion", enumlessKey), ("server", levelKey)],
    fieldOf first place.1 place.2 = none ∨ fieldOf second place.1 place.2 = none

theorem eq_none_of_rel {α β : Type} {Means : α → β → Prop} {first second : Option α}
    {set set' : Option β} (meant : Option.Rel Means first set)
    (meant' : Option.Rel Means second set') (apart : first = none ∨ second = none) :
    set = none ∨ set' = none := by
  rcases apart with rfl | rfl
  · cases meant
    exact .inl rfl
  · cases meant'
    exact .inr rfl

theorem SettingsApart.changes {first second : Entries} {one other : Change}
    (apart : SettingsApart first second) (tables : SectionsAreTables first)
    (tables' : SectionsAreTables second) (sets : Sets first one) (sets' : Sets second other) :
    one.Apart other := by
  obtain ⟨generator, enumless, level⟩ := tables.sets_iff.1 sets
  obtain ⟨generator', enumless', level'⟩ := tables'.sets_iff.1 sets'
  exact ⟨eq_none_of_rel level level' (apart ("server", levelKey) (by simp)),
    eq_none_of_rel generator generator' (apart ("completion", generatorKey) (by simp)),
    eq_none_of_rel enumless enumless' (apart ("completion", enumlessKey) (by simp))⟩

/-! ## Layers of settings -/

namespace Settings

/-- The table in the settings file; without a file it is empty. -/
def fileTable (file : Option String) : Except Toml.Fault Entries :=
  match file with
  | none => .ok []
  | some text => Toml.parse (String.ofList (Text.withLineFeeds text.toList))

theorem ofRoot_eq {path : String} {file : Option String} {entries : Entries}
    (read : fileTable file = .ok entries) :
    ofRoot path file = ({} : Settings).override entries := by
  cases file with
  | none =>
      cases read
      rfl
  | some text => rw [ofRoot, ofFileText, show Toml.parse _ = .ok entries from read]

end Settings

/-- **Settings are layered like tables.**  A table is accepted over all settings or over none.  Of
two tables that are accepted, the second over the first over any settings is the second laid over
the first, over these settings; the first twice is the first; and if no setting stands in both,
they may change places.  So the settings of a root are those of the editor's table laid over that
of the file. -/
theorem override_overlaid {first second : Entries} (tables : SectionsAreTables first)
    (tables' : SectionsAreTables second) {base₁ base₂ settings₁ settings₂ : Settings}
    (accepted : base₁.override first = .ok settings₁)
    (accepted' : base₂.override second = .ok settings₂) (base : Settings) :
    ∃ one other both, base.override first = .ok one ∧ base.override second = .ok other ∧
      one.override second = .ok both ∧ base.override (overlaid second first) = .ok both ∧
      one.override first = .ok one ∧
      (SettingsApart first second → other.override first = .ok both) ∧
      ∀ path file, Settings.fileTable file = .ok first →
        Settings.load path file (.table second) =
          ({} : Settings).override (overlaid second first) := by
  obtain ⟨below, sets, -⟩ := Settings.override_eq_ok.1 accepted
  obtain ⟨above, sets', -⟩ := Settings.override_eq_ok.1 accepted'
  have lower (base : Settings) : base.override first = .ok (below.applied base) :=
    Settings.override_eq_ok.2 ⟨below, sets, rfl⟩
  have upper (base : Settings) : base.override second = .ok (above.applied base) :=
    Settings.override_eq_ok.2 ⟨above, sets', rfl⟩
  have joined (base : Settings) :
      base.override (overlaid second first) = .ok (above.applied (below.applied base)) :=
    Settings.override_eq_ok.2
      ⟨above.atop below, sets'.overlaid sets tables' tables, (Change.applied_atop ..).symm⟩
  refine ⟨_, _, _, lower base, upper base, upper _, joined base, ?_, ?_, ?_⟩
  · rw [lower, ← Change.applied_atop, Change.atop_self]
  · intro apart
    have changes := apart.changes tables tables' sets sets'
    rw [lower, ← Change.applied_atop, ← Change.applied_atop, changes.atop_comm]
  · intro path file read
    rw [Settings.load, Settings.ofRoot_eq read, lower, joined]
    exact upper _

def fileSource : String :=
  "[completion]\r\ngenerator_providers = [\"go\"]\n[server]\nlog_level = \"Debug\" # all\n"

def fileEntries : Entries :=
  [("completion", .table [("generator_providers", .list [.text "go"])]),
    ("server", .table [("log_level", .text "Debug")])]

def editorEntries : Entries :=
  [("completion", .table [("generator_providers", .list []),
      ("enum_unsupported_providers", .list [.text "sqlite", .text "db"])]),
    ("trace", .null)]

theorem override_overlaid_editorEntries :
    SectionsAreTables fileEntries ∧ SectionsAreTables editorEntries ∧
      ({} : Settings).override fileEntries = .ok ⟨.debug, ⟨["go"], ["sqlite"]⟩⟩ ∧
      ({} : Settings).override editorEntries = .ok ⟨.info, ⟨[], ["sqlite", "db"]⟩⟩ ∧
      Settings.fileTable (some fileSource) = .ok fileEntries ∧
      Settings.load "prisma-lsp.toml" (some fileSource) (.table editorEntries) =
        ({} : Settings).override (overlaid editorEntries fileEntries) ∧
      overlaid editorEntries fileEntries =
        [("completion", .table [("generator_providers", .list []),
            ("enum_unsupported_providers", .list [.text "sqlite", .text "db"])]),
          ("server", .table [("log_level", .text "Debug")]), ("trace", .null)] ∧
      ({} : Settings).override (overlaid editorEntries fileEntries) =
        .ok ⟨.debug, ⟨[], ["sqlite", "db"]⟩⟩ := by
  have tables : SectionsAreTables fileEntries := by decide
  have tables' : SectionsAreTables editorEntries := by decide
  have accepted : ({} : Settings).override fileEntries = .ok ⟨.debug, ⟨["go"], ["sqlite"]⟩⟩ := rfl
  have accepted' : ({} : Settings).override editorEntries =
      .ok ⟨.info, ⟨[], ["sqlite", "db"]⟩⟩ := rfl
  have read : Settings.fileTable (some fileSource) = .ok fileEntries := by
    rw [Settings.fileTable, Toml.parse, String.toList_ofList, String.length_ofList, fileSource]
    simp only [String.reduceToList]
    rfl
  obtain ⟨one, other, both, -, -, -, -, -, -, loaded⟩ :=
    override_overlaid tables tables' accepted accepted' {}
  exact ⟨tables, tables', accepted, accepted', read, loaded _ _ read, rfl, rfl⟩

end SchemaAssist

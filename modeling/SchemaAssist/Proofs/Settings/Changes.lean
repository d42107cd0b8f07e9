/-
# SchemaAssist.Proofs.Settings.Changes — what a table of settings sets

A section holds something under a key (`Data.Holds`): a table what is looked up there, and a list
or a text nothing, as long as the key does not occur in it.  Nothing else can be searched.

What a table sets is a change: perhaps a log level, and perhaps providers under either key
(`Change`).  `Sets entries change` reads the change off the table with no settings in sight, and
laying the table over settings applies it (`override_eq_ok`).  Laws of layers are thereby laws of
changes, which are put over one another setting by setting (`Change.atop`).
-/
import SchemaAssist.Settings.Layer
import SchemaAssist.Proofs.Text.Blanks
import Mathlib.Data.Option.Basic
import Mathlib.Tactic.Common

namespace SchemaAssist

set_option autoImplicit false

/-! ## What a section holds -/

theorem Text.occursIn_iff_infix {word line : List Char} :
    occursIn word line = true ↔ word <:+: line := by
  rw [occursIn_iff]
  simp only [List.IsInfix, List.append_assoc, eq_comm]

namespace Data

/-- What a section holds under a key: a value or nothing. -/
inductive Holds (key : String) : Data → Option Data → Prop
  | table {fields : Entries} : Holds key (.table fields) (fields.lookup key)
  | list {items : List Data} : .text key ∉ items → Holds key (.list items) none
  | text {value : String} : ¬ key.toList <:+: value.toList → Holds key (.text value) none

variable {part value : Data} {key : String} {found : Option Data}

theorem any_text?_iff {items : List Data} :
    items.any (·.text? == some key) = true ↔ .text key ∈ items := by
  rw [List.any_eq_true]
  constructor
  · rintro ⟨item, isIn, same⟩
    cases item <;> simp_all [text?]
  · intro isIn
    exact ⟨.text key, isIn, beq_self_eq_true _⟩

/-- A look-up in a section answers what the section holds. -/
theorem lookup?_eq_ok : part.lookup? key = .ok found ↔ Holds key part found := by
  constructor
  · intro looked
    cases part with
    | table fields =>
        cases looked
        exact .table
    | list items =>
        simp only [lookup?] at looked
        split at looked
        · cases looked
        · rename_i absent
          cases looked
          exact .list (any_text?_iff.not.1 absent)
    | text value =>
        simp only [lookup?] at looked
        split at looked
        · cases looked
        · rename_i absent
          cases looked
          exact .text (Text.occursIn_iff_infix.not.1 absent)
    | _ => cases looked
  · rintro (_ | absent | absent)
    · rfl
    · rw [lookup?, if_neg (any_text?_iff.not.2 absent)]
    · rw [lookup?, if_neg (Text.occursIn_iff_infix.not.2 absent)]

/-- A look-up fails in one way only. -/
theorem eq_of_lookup?_eq_error {error : SettingsError}
    (failed : part.lookup? key = .error error) : error = .unsearchableSection := by
  unfold lookup? at failed
  split at failed
  · cases failed
  · split at failed <;> cases failed
    rfl
  · split at failed <;> cases failed
    rfl
  · cases failed
    rfl

end Data

/-- The value of a key in a section that is a table. -/
def fieldOf (entries : Entries) (name key : String) : Option Data :=
  match entries.lookup name with
  | some (.table fields) => fields.lookup key
  | _ => none

def Data.isTable : Data → Bool
  | .table _ => true
  | _ => false

theorem Data.isTable_iff {part : Data} : part.isTable = true ↔ ∃ fields, part = .table fields := by
  cases part <;> simp [isTable]

def SectionsAreTables (entries : Entries) : Prop :=
  ∀ name ∈ ["server", "completion"], (entries.lookup name).all Data.isTable = true

instance : DecidablePred SectionsAreTables := fun entries =>
  inferInstanceAs (Decidable (∀ name ∈ ["server", "completion"],
    (entries.lookup name).all Data.isTable = true))

theorem SectionsAreTables.exists_fields {entries : Entries} (tables : SectionsAreTables entries)
    {name : String} (isRead : name ∈ ["server", "completion"]) {part : Data}
    (there : entries.lookup name = some part) : ∃ fields, part = .table fields := by
  have isTable := tables name isRead
  rw [there] at isTable
  exact Data.isTable_iff.1 isTable

/-- A section that is a table holds its fields, and an absent one holds nothing. -/
theorem SectionsAreTables.holds_iff {entries : Entries} (tables : SectionsAreTables entries)
    {name key : String} (isRead : name ∈ ["server", "completion"]) {found : Option Data} :
    (Settings.sectionOf entries name).Holds key found ↔ found = fieldOf entries name key := by
  have tabled {fields : Entries} :
      Data.Holds key (.table fields) found ↔ found = fields.lookup key := by
    constructor
    · rintro ⟨⟩
      rfl
    · rintro rfl
      exact .table
  unfold Settings.sectionOf fieldOf
  cases there : entries.lookup name with
  | none => exact tabled
  | some part =>
      obtain ⟨fields, rfl⟩ := tables.exists_fields isRead there
      exact tabled

/-! ## What a value means -/

def IsTexts (value : Data) (texts : List String) : Prop := value = .list (texts.map .text)

/-- The value is a text that reads as the name of the level in capitals. -/
def IsLevel (value : Data) (level : LogLevel) : Prop :=
  ∃ text, value = .text text ∧ Text.upper text = level.name

theorem text?_eq_some {value : Data} {text : String} :
    value.text? = some text ↔ value = .text text := by
  cases value <;> simp [Data.text?]

theorem mapM_text?_eq_some {items : List Data} {texts : List String} :
    items.mapM Data.text? = some texts ↔ items = texts.map .text := by
  induction items generalizing texts with
  | nil => cases texts <;> simp
  | cons item items ih =>
      simp only [List.mapM_cons, Option.bind_eq_bind, Option.bind_eq_some_iff, text?_eq_some, ih]
      cases texts with
      | nil => simp
      | cons text texts => simp [eq_comm]

theorem texts?_eq_some {value : Data} {texts : List String} :
    value.texts? = some texts ↔ IsTexts value texts := by
  cases value <;> simp [Data.texts?, IsTexts, mapM_text?_eq_some]

theorem ofText?_eq_some {text : String} {level : LogLevel} :
    LogLevel.ofText? text = some level ↔ Text.upper text = level.name := by
  unfold LogLevel.ofText?
  generalize Text.upper text = name
  constructor
  · intro found
    have same := List.find?_some found
    exact (beq_iff_eq.1 same).symm
  · rintro rfl
    cases level <;> decide

theorem level?_eq_some {value : Data} {level : LogLevel} :
    value.text?.bind LogLevel.ofText? = some level ↔ IsLevel value level := by
  simp only [Option.bind_eq_some_iff, text?_eq_some, ofText?_eq_some, IsLevel]

/-! ## One setting -/

namespace Settings

section

variable {α : Type}

/-- The setting under a key, read with `read?`, or the one given if the section has none. -/
def settingUnder (read? : Data → Option α) (refusal : Data → SettingsError) (part : Data)
    (key : String) (base : α) : Except SettingsError α :=
  match part.lookup? key with
  | .error error => .error error
  | .ok none => .ok base
  | .ok (some value) =>
      match read? value with
      | some setting => .ok setting
      | none => .error (.showing value (refusal value))

theorem providersUnder_eq (part : Data) (key : String) (base : List String) :
    providersUnder part key base = settingUnder Data.texts? (.notTexts key) part key base := by
  simp only [providersUnder, settingUnder, bind, Except.bind]
  cases part.lookup? key with
  | error error => rfl
  | ok found =>
      cases found with
      | none => rfl
      | some value =>
          dsimp only
          cases value.texts? <;> rfl

theorem levelUnder_eq (part : Data) (base : LogLevel) :
    levelUnder part base =
      settingUnder (·.text?.bind LogLevel.ofText?) .unknownLevel part levelKey base := by
  simp only [levelUnder, settingUnder, bind, Except.bind]
  cases part.lookup? levelKey with
  | error error => rfl
  | ok found =>
      cases found with
      | none => rfl
      | some value =>
          dsimp only
          cases value.text?.bind LogLevel.ofText? <;> rfl

variable {read? : Data → Option α} {refusal : Data → SettingsError} {Means : Data → α → Prop}
  {part : Data} {key : String} {base result : α}

/-- A setting is the one held under the key, or the one given. -/
theorem settingUnder_eq_ok
    (means : ∀ value setting, read? value = some setting ↔ Means value setting) :
    settingUnder read? refusal part key base = .ok result ↔
      ∃ found set, part.Holds key found ∧ Option.Rel Means found set ∧ result = set.getD base := by
  constructor
  · intro accepted
    unfold settingUnder at accepted
    cases looked : part.lookup? key with
    | error error =>
        rw [looked] at accepted
        cases accepted
    | ok found =>
        have holds := Data.lookup?_eq_ok.1 looked
        rw [looked] at accepted
        cases found with
        | none =>
            cases accepted
            exact ⟨none, none, holds, .none, rfl⟩
        | some value =>
            simp only at accepted
            split at accepted
            · rename_i setting read
              cases accepted
              exact ⟨some value, some result, holds, .some ((means _ _).1 read), rfl⟩
            · cases accepted
  · rintro ⟨found, set, holds, meant, rfl⟩
    rw [settingUnder, Data.lookup?_eq_ok.2 holds]
    cases meant with
    | none => rfl
    | some meant =>
        simp only [(means _ _).2 meant]
        rfl

/-- A setting is refused if its section cannot be searched, or for a value that does not mean
one. -/
theorem settingUnder_eq_error
    (means : ∀ value setting, read? value = some setting ↔ Means value setting)
    {error : SettingsError} (refused : settingUnder read? refusal part key base = .error error) :
    (error = .unsearchableSection ∧ ∀ found, ¬ part.Holds key found) ∨
      ∃ value, part.Holds key (some value) ∧ (∀ setting, ¬ Means value setting) ∧
        error = .showing value (refusal value) := by
  unfold settingUnder at refused
  cases looked : part.lookup? key with
  | error cause =>
      rw [looked] at refused
      cases refused
      refine .inl ⟨Data.eq_of_lookup?_eq_error looked, fun found holds => ?_⟩
      rw [Data.lookup?_eq_ok.2 holds] at looked
      cases looked
  | ok found =>
      rw [looked] at refused
      cases found with
      | none => cases refused
      | some value =>
          simp only at refused
          split at refused
          · cases refused
          · rename_i unread
            cases refused
            refine .inr ⟨value, Data.lookup?_eq_ok.1 looked, fun setting meant => ?_, rfl⟩
            rw [(means _ _).2 meant] at unread
            cases unread

end

end Settings

/-! ## Changes -/

/-- What a table sets. -/
structure Change where
  level : Option LogLevel
  generator : Option (List String)
  enumless : Option (List String)

theorem or_comm_of_none {α : Type} {first second : Option α}
    (apart : first = none ∨ second = none) : first.or second = second.or first := by
  rcases apart with rfl | rfl <;> simp

namespace Change

def applied (change : Change) (settings : Settings) : Settings :=
  ⟨change.level.getD settings.logLevel,
    change.generator.getD settings.completion.generatorProviders,
    change.enumless.getD settings.completion.enumlessProviders⟩

/-- Two changes as one: what the upper one does not set, the lower one does. -/
def atop (upper lower : Change) : Change :=
  ⟨upper.level.or lower.level, upper.generator.or lower.generator,
    upper.enumless.or lower.enumless⟩

/-- No setting is set by both. -/
def Apart (first second : Change) : Prop :=
  (first.level = none ∨ second.level = none) ∧
    (first.generator = none ∨ second.generator = none) ∧
    (first.enumless = none ∨ second.enumless = none)

theorem applied_atop (upper lower : Change) (settings : Settings) :
    (upper.atop lower).applied settings = upper.applied (lower.applied settings) := by
  simp only [applied, atop, Option.getD_or]

theorem atop_self (change : Change) : change.atop change = change := by
  simp only [atop, Option.or_self]

theorem Apart.atop_comm {first second : Change} (apart : Apart first second) :
    first.atop second = second.atop first := by
  obtain ⟨level, generator, enumless⟩ := apart
  simp only [atop, or_comm_of_none level, or_comm_of_none generator, or_comm_of_none enumless]

end Change

/-- The table sets what the change has, and is right in all that it sets. -/
structure Sets (entries : Entries) (change : Change) : Prop where
  generator : ∃ found, (Settings.sectionOf entries "completion").Holds generatorKey found ∧
    Option.Rel IsTexts found change.generator
  enumless : ∃ found, (Settings.sectionOf entries "completion").Holds enumlessKey found ∧
    Option.Rel IsTexts found change.enumless
  level : ∃ found, (Settings.sectionOf entries "server").Holds levelKey found ∧
    Option.Rel IsLevel found change.level

/-- If its sections are tables, a table sets what their fields mean. -/
theorem SectionsAreTables.sets_iff {entries : Entries} (tables : SectionsAreTables entries)
    {change : Change} : Sets entries change ↔
      Option.Rel IsTexts (fieldOf entries "completion" generatorKey) change.generator ∧
        Option.Rel IsTexts (fieldOf entries "completion" enumlessKey) change.enumless ∧
        Option.Rel IsLevel (fieldOf entries "server" levelKey) change.level := by
  have completion : "completion" ∈ ["server", "completion"] := by decide
  have server : "server" ∈ ["server", "completion"] := by decide
  constructor
  · rintro ⟨⟨_, holds₁, meant₁⟩, ⟨_, holds₂, meant₂⟩, ⟨_, holds₃, meant₃⟩⟩
    obtain rfl := (tables.holds_iff completion).1 holds₁
    obtain rfl := (tables.holds_iff completion).1 holds₂
    obtain rfl := (tables.holds_iff server).1 holds₃
    exact ⟨meant₁, meant₂, meant₃⟩
  · rintro ⟨meant₁, meant₂, meant₃⟩
    exact ⟨⟨_, (tables.holds_iff completion).2 rfl, meant₁⟩,
      ⟨_, (tables.holds_iff completion).2 rfl, meant₂⟩, ⟨_, (tables.holds_iff server).2 rfl, meant₃⟩⟩

namespace Settings

theorem bind_eq_ok {α β : Type} {value : Except SettingsError α}
    {next : α → Except SettingsError β} {result : β} :
    value >>= next = .ok result ↔ ∃ a, value = .ok a ∧ next a = .ok result := by
  cases value <;> simp [bind, Except.bind]

theorem bind_eq_error {α β : Type} {value : Except SettingsError α}
    {next : α → Except SettingsError β} {error : SettingsError} :
    value >>= next = .error error ↔
      value = .error error ∨ ∃ a, value = .ok a ∧ next a = .error error := by
  cases value <;> simp [bind, Except.bind]

/-- **A table laid over settings** is accepted if it is right in all that it sets, and changes
this and nothing else. -/
theorem override_eq_ok {base result : Settings} {entries : Entries} :
    base.override entries = .ok result ↔
      ∃ change, Sets entries change ∧ result = change.applied base := by
  simp only [override, bind_eq_ok, providersUnder_eq, levelUnder_eq,
    settingUnder_eq_ok fun _ _ => texts?_eq_some, settingUnder_eq_ok fun _ _ => level?_eq_some]
  constructor
  · rintro ⟨_, ⟨found₁, generator, holds₁, meant₁, rfl⟩, _, ⟨found₂, enumless, holds₂, meant₂, rfl⟩,
      _, ⟨found₃, level, holds₃, meant₃, rfl⟩, same⟩
    cases same
    exact ⟨⟨level, generator, enumless⟩, ⟨⟨_, holds₁, meant₁⟩, ⟨_, holds₂, meant₂⟩,
      ⟨_, holds₃, meant₃⟩⟩, rfl⟩
  · rintro ⟨change, ⟨⟨_, holds₁, meant₁⟩, ⟨_, holds₂, meant₂⟩, ⟨_, holds₃, meant₃⟩⟩, rfl⟩
    exact ⟨_, ⟨_, _, holds₁, meant₁, rfl⟩, _, ⟨_, _, holds₂, meant₂, rfl⟩, _,
      ⟨_, _, holds₃, meant₃, rfl⟩, rfl⟩

end Settings

end SchemaAssist

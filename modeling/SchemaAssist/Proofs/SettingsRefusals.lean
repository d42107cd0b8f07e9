/-
# SchemaAssist.Proofs.SettingsRefusals — which settings are refused, and what for

A table of settings is well typed if the sections that are there are tables, providers are lists of
texts and a log level is the name of one (`WellTyped`).  Among the tables whose sections are
tables, exactly these are accepted, and each other one is refused for a value of the wrong sort
(`override_concludes`).

Two things that are no refusals in words remain.  A section that is no table fails the reading
unless it is a list or a text that does not hold the keys, and then it is passed over; a value that
holds an integer too long to be shown fails the message that would show it
(`override_unworded`).
-/
import SchemaAssist.Session
import SchemaAssist.Proofs.Settings.Changes

namespace SchemaAssist

set_option autoImplicit false

/-! ## Refusals -/

/-- What a table is refused for: a value that is no list of texts, one that is no level, or a
section in which a key cannot be looked up. -/
inductive Refused (entries : Entries) : SettingsError → Prop
  | notTexts {key : String} {value : Data} :
      key ∈ [generatorKey, enumlessKey] →
      (Settings.sectionOf entries "completion").Holds key (some value) →
      (∀ texts, ¬ IsTexts value texts) →
      Refused entries (.showing value (.notTexts key value))
  | unknownLevel {value : Data} :
      (Settings.sectionOf entries "server").Holds levelKey (some value) →
      (∀ level, ¬ IsLevel value level) →
      Refused entries (.showing value (.unknownLevel value))
  | unsearchable {name key : String} :
      (name, key) ∈ [("completion", generatorKey), ("completion", enumlessKey),
        ("server", levelKey)] →
      (∀ found, ¬ (Settings.sectionOf entries name).Holds key found) →
      Refused entries .unsearchableSection

namespace Settings

/-- A table is refused for something. -/
theorem refused_of_override {base : Settings} {entries : Entries} {error : SettingsError}
    (failed : base.override entries = .error error) : Refused entries error := by
  simp only [override, bind_eq_error, providersUnder_eq, levelUnder_eq] at failed
  obtain failed | ⟨_, -, failed | ⟨_, -, failed | ⟨_, -, failed⟩⟩⟩ := failed
  · obtain ⟨rfl, unsearchable⟩ | ⟨value, holds, wrong, rfl⟩ :=
      settingUnder_eq_error (fun _ _ => texts?_eq_some) failed
    · exact .unsearchable (by simp) unsearchable
    · exact .notTexts (by simp) holds wrong
  · obtain ⟨rfl, unsearchable⟩ | ⟨value, holds, wrong, rfl⟩ :=
      settingUnder_eq_error (fun _ _ => texts?_eq_some) failed
    · exact .unsearchable (by simp) unsearchable
    · exact .notTexts (by simp) holds wrong
  · obtain ⟨rfl, unsearchable⟩ | ⟨value, holds, wrong, rfl⟩ :=
      settingUnder_eq_error (fun _ _ => level?_eq_some) failed
    · exact .unsearchable (by simp) unsearchable
    · exact .unknownLevel holds wrong
  · cases failed

end Settings

/-! ## Well-typed tables -/

/-- The sections that are there are tables, and what they hold under the keys that are read means
something there. -/
structure WellTyped (entries : Entries) : Prop where
  tables : SectionsAreTables entries
  providers : ∀ key ∈ [generatorKey, enumlessKey],
    ∀ value ∈ fieldOf entries "completion" key, ∃ texts, IsTexts value texts
  level : ∀ value ∈ fieldOf entries "server" levelKey, ∃ level, IsLevel value level

theorem exists_rel_iff {α β : Type} {Means : α → β → Prop} {found : Option α} :
    (∃ set, Option.Rel Means found set) ↔ ∀ value ∈ found, ∃ meant, Means value meant := by
  cases found with
  | none => exact iff_of_true ⟨none, .none⟩ nofun
  | some value =>
      constructor
      · rintro ⟨_, meant⟩ other here
        obtain rfl := Option.mem_some.1 here
        cases meant with
        | some meant => exact ⟨_, meant⟩
      · intro means
        obtain ⟨meant, here⟩ := means value rfl
        exact ⟨some meant, .some here⟩

/-- Well-typed tables are those that set something and whose sections are tables. -/
theorem wellTyped_iff {entries : Entries} :
    WellTyped entries ↔ (∃ change, Sets entries change) ∧ SectionsAreTables entries := by
  constructor
  · rintro ⟨tables, providers, level⟩
    obtain ⟨generator, meant₁⟩ := exists_rel_iff.2 (providers generatorKey (by simp))
    obtain ⟨enumless, meant₂⟩ := exists_rel_iff.2 (providers enumlessKey (by simp))
    obtain ⟨level, meant₃⟩ := exists_rel_iff.2 level
    exact ⟨⟨⟨level, generator, enumless⟩, tables.sets_iff.2 ⟨meant₁, meant₂, meant₃⟩⟩, tables⟩
  · rintro ⟨⟨change, sets⟩, tables⟩
    obtain ⟨generator, enumless, level⟩ := tables.sets_iff.1 sets
    refine ⟨tables, fun key isKey => ?_, exists_rel_iff.1 ⟨_, level⟩⟩
    rcases List.mem_pair.1 isKey with rfl | rfl
    · exact exists_rel_iff.1 ⟨_, generator⟩
    · exact exists_rel_iff.1 ⟨_, enumless⟩

/-! ## Refusals in words -/

def SettingsError.IsWorded : SettingsError → Prop
  | .notTexts _ _ | .unknownLevel _ | .unreadableFile _ => True
  | .unsearchableSection | .oversizedInteger => False

/-- What the table holds under the keys that are read can be shown. -/
def Showable (entries : Entries) : Prop :=
  ∀ place ∈ [("completion", generatorKey), ("completion", enumlessKey), ("server", levelKey)],
    ∀ value ∈ fieldOf entries place.1 place.2, value.isShowable = true

theorem Refused.isWorded {entries : Entries} {error : SettingsError}
    (refused : Refused entries error) (tables : SectionsAreTables entries)
    (showable : Showable entries) : error.IsWorded := by
  cases refused with
  | @notTexts key value isKey holds wrong =>
      have here := (tables.holds_iff (by simp)).1 holds
      have shown : value.isShowable = true := by
        refine showable ("completion", key) ?_ value here.symm
        rcases List.mem_pair.1 isKey with rfl | rfl <;> simp
      rw [SettingsError.showing, if_pos shown]
      trivial
  | @unknownLevel value holds wrong =>
      have here := (tables.holds_iff (by simp)).1 holds
      have shown : value.isShowable = true :=
        showable ("server", levelKey) (by simp) value here.symm
      rw [SettingsError.showing, if_pos shown]
      trivial
  | @unsearchable name key isRead unsearchable =>
      have isSection : name ∈ ["server", "completion"] := by
        simp only [List.mem_cons, Prod.mk.injEq, List.not_mem_nil, or_false] at isRead
        rcases isRead with ⟨rfl, -⟩ | ⟨rfl, -⟩ | ⟨rfl, -⟩ <;> decide
      exact absurd ((tables.holds_iff isSection).2 rfl) (unsearchable _)

/-- **What laying a table over settings concludes with.**  The tables that are accepted and whose
sections are tables are the well-typed ones; the level is then that of the table, or else that of
the settings below.  All others are refused for something, and in words, unless a section is no
table or a value cannot be shown. -/
theorem override_concludes (base : Settings) (entries : Entries) :
    ((∃ settings, base.override entries = .ok settings) ∧ SectionsAreTables entries ↔
        WellTyped entries) ∧
      (∀ settings, base.override entries = .ok settings →
        ∃ found level, (Settings.sectionOf entries "server").Holds levelKey found ∧
          Option.Rel IsLevel found level ∧ settings.logLevel = level.getD base.logLevel) ∧
      ∀ error, base.override entries = .error error →
        Refused entries error ∧
          (SectionsAreTables entries → Showable entries → error.IsWorded) := by
  refine ⟨?_, ?_, ?_⟩
  · rw [wellTyped_iff]
    simp only [Settings.override_eq_ok]
    constructor
    · rintro ⟨⟨settings, change, sets, -⟩, tables⟩
      exact ⟨⟨change, sets⟩, tables⟩
    · rintro ⟨⟨change, sets⟩, tables⟩
      exact ⟨⟨_, change, sets, rfl⟩, tables⟩
  · intro settings accepted
    obtain ⟨change, sets, rfl⟩ := Settings.override_eq_ok.1 accepted
    obtain ⟨found, holds, meant⟩ := sets.level
    exact ⟨found, _, holds, meant, rfl⟩
  · intro error failed
    have refused := Settings.refused_of_override failed
    exact ⟨refused, refused.isWorded⟩

/-- A number for a section is refused, but not in words, and fails the start of a session; a list
is passed over; and a number that is too long cannot be put into words. -/
theorem override_unworded :
    ({} : Settings).override [("server", .int 5)] = .error .unsearchableSection ∧
      (({} : Session).start none (.table [("server", .int 5)]) true).1 =
        .failed .unsearchableSection ∧
      ({} : Settings).override [("server", .list [])] = .ok {} ∧
      ¬ WellTyped [("server", .list [])] ∧
      ({} : Settings).override
          [("completion", .table [("generator_providers", .int (Nat.pow 10 Data.digitBound))])] =
        .error .oversizedInteger := by
  refine ⟨rfl, rfl, rfl, ?_, ?_⟩
  · rintro ⟨tables, -, -⟩
    exact absurd tables (by decide)
  · have refused (number : Int) : ({} : Settings).override
        [("completion", .table [("generator_providers", .int number)])] =
          .error (.showing (.int number) (.notTexts generatorKey (.int number))) := rfl
    have hidden : Data.isShowable (.int (Nat.pow 10 Data.digitBound)) = false := by
      rw [Data.isShowable, Int.natAbs_natCast, decide_eq_false (Nat.lt_irrefl _)]
    rw [refused, SettingsError.showing, hidden]
    rfl

end SchemaAssist

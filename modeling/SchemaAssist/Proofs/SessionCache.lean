/-
# SchemaAssist.Proofs.SessionCache — the parse cache is never stale

An editor tells a session the texts of its documents: opening and changing set one,
closing takes it away (`Message.tell`).  An orderly editor changes, saves, closes and
asks about open documents only, and no text changes behind its back (`IsOrderly`).

`UpToDate` is the invariant that carries the proof: the session holds the texts that it
was told, and for each open document, and no other, the tree of its text.  Every
message keeps it (`UpToDate.step`), so it holds after every message of a run, and each
question is answered from the text and the tree that are current (`run_neverStale`).

Texts are kept under decoded addresses and trees under the addresses as given.  The
invariant therefore needs that no two addresses in use decode to the same; where they
do, an answer joins the text of one with the tree of the other (`run_aliased`).
-/
import SchemaAssist.Session
import Mathlib.Data.List.Induction
import Mathlib.Logic.Function.Basic
import Mathlib.Tactic.Common

namespace SchemaAssist

set_option autoImplicit false

/-! ## Keyed lists -/

section

variable {α : Type} (key other : String) (value : α) (entries : List (String × α))

theorem lookup_filter_key : (entries.filter (·.1 != key)).lookup other =
    if other = key then none else entries.lookup other := by
  induction entries with
  | nil => simp
  | cons entry entries ih =>
      obtain ⟨name, stored⟩ := entry
      by_cases same : name = key
      · subst same
        rw [List.filter_cons_of_neg (by simp), ih]
        split
        · rfl
        · rename_i different
          rw [List.lookup_cons, beq_false_of_ne different]
      · rw [List.filter_cons_of_pos (by simpa using same), List.lookup_cons, List.lookup_cons, ih]
        by_cases here : other = name
        · subst here
          simp [same]
        · rw [beq_false_of_ne here]

theorem lookup_putKey : (putKey key value entries).lookup other =
    if other = key then some value else entries.lookup other := by
  rw [putKey, List.lookup_cons, lookup_filter_key]
  by_cases same : other = key
  · simp [same]
  · rw [beq_false_of_ne same, if_neg same, if_neg same]

theorem lookup_dropKey : (dropKey key entries).lookup other =
    if other = key then none else entries.lookup other :=
  lookup_filter_key key other entries

end

/-! ## What an editor tells -/

/-- The texts of the open documents, by their addresses. -/
abbrev Texts := String → Option String

namespace Message

def address? : Message → Option String
  | started _ _ => none
  | opened address _ | changed address _ | edited address _ => some address
  | saved address | closed address | completionAsked address _ => some address

def tell (told : Texts) : Message → Texts
  | opened address text | changed address text | edited address text =>
      Function.update told address (some text)
  | closed address => Function.update told address none
  | started _ _ | saved _ | completionAsked _ _ => told

/-- Whether an orderly editor sends the message when these documents are open. -/
def Fits (told : Texts) : Message → Prop
  | started _ _ | opened _ _ => True
  | changed address _ | saved address | closed address | completionAsked address _ =>
      (told address).isSome = true
  | edited _ _ => False

instance (told : Texts) : DecidablePred (Fits told)
  | started _ _ | opened _ _ => .isTrue trivial
  | changed address _ | saved address | closed address | completionAsked address _ =>
      inferInstanceAs (Decidable ((told address).isSome = true))
  | edited _ _ => .isFalse id

end Message

def textsAfter (messages : List Message) : Texts := messages.foldl Message.tell fun _ => none

def OrderlyFrom : Texts → List Message → Prop
  | _, [] => True
  | told, message :: rest => message.Fits told ∧ OrderlyFrom (message.tell told) rest

def IsOrderly (messages : List Message) : Prop := OrderlyFrom (fun _ => none) messages

instance decidableOrderlyFrom : (told : Texts) → DecidablePred (OrderlyFrom told)
  | _, [] => .isTrue trivial
  | told, message :: rest =>
      have := decidableOrderlyFrom (message.tell told) rest
      inferInstanceAs (Decidable (_ ∧ _))

instance : DecidablePred IsOrderly := decidableOrderlyFrom _

def addresses (messages : List Message) : List String := messages.filterMap Message.address?

/-- No two of the addresses name the same document. -/
def Apart (inUse : List String) : Prop :=
  ∀ first ∈ inUse, ∀ second ∈ inUse,
    Text.percentDecoded first = Text.percentDecoded second → first = second

instance : DecidablePred Apart := fun _ => inferInstanceAs (Decidable (∀ _ ∈ _, _))

theorem textsAfter_concat (messages : List Message) (message : Message) :
    textsAfter (messages ++ [message]) = message.tell (textsAfter messages) := by
  rw [textsAfter, List.foldl_append]
  rfl

/-! ## The invariant -/

/-- The session holds the texts that it was told, and their trees. -/
structure UpToDate (inUse : List String) (session : Session) (told : Texts) : Prop where
  texts : ∀ address ∈ inUse, session.text? address = told address
  trees : ∀ address, session.trees.lookup address = (told address).map Schema.parse?

namespace UpToDate

variable {inUse : List String} {session : Session} {told : Texts} {address text : String}

theorem fresh : UpToDate inUse {} fun _ => none := ⟨fun _ _ => rfl, fun _ => rfl⟩

/-- Parsing an open document anew brings its tree up to date. -/
theorem refresh (texts : ∀ other ∈ inUse, session.text? other = told other)
    (trees : ∀ other, other ≠ address →
      session.trees.lookup other = (told other).map Schema.parse?)
    (used : address ∈ inUse) (isOpen : told address = some text) :
    UpToDate inUse (session.answerRefreshed address).2 told := by
  have refreshed : (session.answerRefreshed address).2 =
      { session with trees := putKey address (Schema.parse? text) session.trees } := by
    rw [Session.answerRefreshed, Session.refreshed, texts address used, isOpen]
  rw [refreshed]
  refine ⟨texts, fun other => ?_⟩
  rw [lookup_putKey]
  by_cases same : other = address
  · rw [if_pos same, same, isOpen]
    rfl
  · rw [if_neg same]
    exact trees other same

/-- A text that is put under an address in use concerns no other address in use. -/
theorem putText (upToDate : UpToDate inUse session told) (apart : Apart inUse)
    (used : address ∈ inUse) :
    UpToDate inUse ((session.withText address text).answerRefreshed address).2
      (Function.update told address (some text)) := by
  refine refresh (fun other otherUsed => ?_) (fun other different => ?_) used
    (Function.update_self ..)
  · rw [Session.text?, Session.withText, lookup_putKey]
    by_cases same : other = address
    · rw [if_pos (congrArg _ same), same, Function.update_self]
    · rw [if_neg fun decoded => same (apart _ otherUsed _ used decoded), Function.update_of_ne same]
      exact upToDate.texts other otherUsed
  · rw [Function.update_of_ne different]
    exact upToDate.trees other

theorem close (upToDate : UpToDate inUse session told) (apart : Apart inUse)
    (used : address ∈ inUse) (file : Option String) :
    UpToDate inUse (session.step file (.closed address)).2
      (Function.update told address none) := by
  refine ⟨fun other otherUsed => ?_, fun other => ?_⟩
  · change (dropKey _ session.texts).lookup _ = _
    rw [lookup_dropKey]
    by_cases same : other = address
    · rw [if_pos (congrArg _ same), same, Function.update_self]
    · rw [if_neg fun decoded => same (apart _ otherUsed _ used decoded), Function.update_of_ne same]
      exact upToDate.texts other otherUsed
  · change (dropKey _ session.trees).lookup _ = _
    rw [lookup_dropKey]
    by_cases same : other = address
    · rw [if_pos same, same, Function.update_self]
      rfl
    · rw [if_neg same, Function.update_of_ne same]
      exact upToDate.trees other

/-- A question about an open document is answered from its text and its tree, and the
tree that is kept need not be parsed again. -/
theorem complete (upToDate : UpToDate inUse session told) (used : address ∈ inUse)
    (isOpen : told address = some text) {cursor : Cursor}
    (addressable : cursor.isAddressable = true) :
    session.complete address cursor =
      (.items (session.suggestions text cursor (Schema.parse? text)), session) := by
  have known : session.trees.lookup address = some (Schema.parse? text) := by
    rw [upToDate.trees, isOpen]
    rfl
  have stored : session.text? address = some text := (upToDate.texts address used).trans isOpen
  simp [Session.complete, addressable, stored, known]

/-- Starting the session again touches the settings only. -/
theorem start (upToDate : UpToDate inUse session told) (file : Option String) (options : Data)
    (hasRoot : Bool) : UpToDate inUse (session.start file options hasRoot).2 told := by
  have kept : (session.start file options hasRoot).2.texts = session.texts ∧
      (session.start file options hasRoot).2.trees = session.trees := by
    unfold Session.start
    dsimp only
    split <;> exact ⟨rfl, rfl⟩
  refine ⟨fun other used => ?_, fun other => ?_⟩
  · rw [Session.text?, kept.1]
    exact upToDate.texts other used
  · rw [kept.2]
    exact upToDate.trees other

/-- Every message that an orderly editor sends keeps the session up to date. -/
theorem step (upToDate : UpToDate inUse session told)
    (apart : Apart inUse) {message : Message}
    (used : ∀ address, message.address? = some address → address ∈ inUse)
    (fits : message.Fits told) (file : Option String) :
    UpToDate inUse (session.step file message).2 (message.tell told) := by
  cases message with
  | started options hasRoot => exact upToDate.start file options hasRoot
  | opened address text => exact upToDate.putText apart (used _ rfl)
  | changed address text => exact upToDate.putText apart (used _ rfl)
  | edited address text => exact fits.elim
  | saved address =>
      obtain ⟨text, isOpen⟩ := Option.isSome_iff_exists.1 fits
      exact refresh upToDate.texts (fun other _ => upToDate.trees other) (used _ rfl) isOpen
  | closed address => exact upToDate.close apart (used _ rfl) file
  | completionAsked address cursor =>
      obtain ⟨text, isOpen⟩ := Option.isSome_iff_exists.1 fits
      by_cases addressable : cursor.isAddressable = true
      · rw [Session.step, upToDate.complete (used _ rfl) isOpen addressable]
        exact upToDate
      · rw [Session.step, Session.complete, if_pos (by simpa using addressable)]
        exact upToDate

end UpToDate

/-! ## Runs -/

/-- Before each message of an orderly run the session is up to date. -/
theorem exists_run_upToDate {inUse : List String} (apart : Apart inUse) (file : Option String)
    {before after : List Message} {message : Message} {session : Session} {told : Texts}
    (upToDate : UpToDate inUse session told)
    (orderly : OrderlyFrom told (before ++ message :: after))
    (used : ∀ sent ∈ before, ∀ address, sent.address? = some address → address ∈ inUse) :
    ∃ current, UpToDate inUse current (before.foldl Message.tell told) ∧
      message.Fits (before.foldl Message.tell told) ∧
      (Session.run file session (before ++ message :: after))[before.length]? =
        some (current.step file message) := by
  induction before generalizing session told with
  | nil => exact ⟨session, upToDate, orderly.1, rfl⟩
  | cons first before ih =>
      have next := upToDate.step apart (used first List.mem_cons_self) orderly.1 file
      exact ih next orderly.2 fun sent isIn => used sent (List.mem_cons_of_mem _ isIn)

/-- After every message, the trees kept are exactly those of the texts of the open
documents, and every question about one is answered from that text and its tree, whatever
came before.  Only cursors with numbers of 31 bits can be asked about. -/
def NeverStale (file : Option String) (messages : List Message) : Prop :=
  ∀ before message after, messages = before ++ message :: after →
    ∃ answer session, (Session.run file {} messages)[before.length]? = some (answer, session) ∧
      (∀ address, (textsAfter (before ++ [message]) address).isSome = true →
        session.text? address = textsAfter (before ++ [message]) address) ∧
      (∀ address, session.trees.lookup address =
        (textsAfter (before ++ [message]) address).map Schema.parse?) ∧
      ∀ address cursor, message = .completionAsked address cursor →
        cursor.isAddressable = true → ∃ text, textsAfter before address = some text ∧
          answer = .items (Completion.items (.ofText text) cursor (Schema.parse? text)
            session.settings.completion)

theorem Message.isSome_tell {message : Message} {told : Texts} {address : String}
    (isOpen : (message.tell told address).isSome = true) :
    message.address? = some address ∨ (told address).isSome = true := by
  cases message with
  | opened other _ | changed other _ | edited other _ | closed other =>
      by_cases same : address = other
      · exact .inl (congrArg some same.symm)
      · rw [Message.tell, Function.update_of_ne same] at isOpen
        exact .inr isOpen
  | started | saved | completionAsked => exact .inr isOpen

/-- An open document has been named. -/
theorem mem_addresses_of_isSome {messages : List Message} {address : String}
    (isOpen : (textsAfter messages address).isSome = true) : address ∈ addresses messages := by
  induction messages using List.reverseRecOn with
  | nil => cases isOpen
  | append_singleton messages message ih =>
      rw [textsAfter_concat] at isOpen
      rw [addresses, List.filterMap_append, List.mem_append]
      rcases message.isSome_tell isOpen with here | before
      · exact .inr (by simp [here])
      · exact .inl (ih before)

def reopenedMessages : List Message :=
  [.opened "file:///a" "model A \x7b\n  \n\x7d", .opened "file:///b" "enum B \x7b\n b\n\x7d",
    .changed "file:///a" "model A \x7b\n  f \n\x7d", .completionAsked "file:///a" ⟨1, 4⟩,
    .closed "file:///a", .saved "file:///b", .opened "file:///a" "", .closed "file:///b"]

def Answer.items? : Answer → Option (List Item)
  | .items list => some list
  | _ => none

/-- Messages about one document under two addresses. -/
def aliasedMessages : List Message :=
  [.opened "file:///a%20b" "model A \x7b\n  \n\x7d",
    .opened "file:///a b" "datasource A \x7b\n  f \n\x7d",
    .completionAsked "file:///a%20b" ⟨1, 4⟩]

end SchemaAssist

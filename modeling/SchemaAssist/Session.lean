/-
# SchemaAssist.Session — the server between an editor and its documents

A session keeps the texts of the open documents and, for every document it has
been told about, the tree of the text it had then, if that text was a schema.
Opening, changing and saving a document parse it anew; closing forgets it.
Completion answers from the tree kept, and parses only a document that has none.

Documents are addressed by texts in which any character may be percent-encoded.
Two addresses with the same decoded form name the same text, but trees are kept
under the address as it was given.

The settings are read whenever the editor starts the session.  Settings that
are refused leave the defaults; a section that cannot even be searched, or an
integer that is too long, fails the start and leaves the settings as they were.
-/
import SchemaAssist.Completion
import SchemaAssist.Settings.File
import SchemaAssist.Tree.Parser
import SchemaAssist.Text.Percent

namespace SchemaAssist

set_option autoImplicit false

/-! ## Keyed lists -/

def putKey {α : Type} (key : String) (value : α) (entries : List (String × α)) :
    List (String × α) :=
  (key, value) :: entries.filter (·.1 != key)

def dropKey {α : Type} (key : String) (entries : List (String × α)) : List (String × α) :=
  entries.filter (·.1 != key)

/-! ## State and messages -/

structure Session where
  hasRoot : Bool := false
  settings : Settings := {}
  texts : List (String × String) := []
  trees : List (String × Option Schema) := []
  deriving Inhabited

/-- What an editor tells or asks a session.  `edited` changes a text behind the
session's back. -/
inductive Message where
  | started (options : Data) (hasRoot : Bool)
  | opened (address text : String)
  | changed (address text : String)
  | edited (address text : String)
  | saved (address : String)
  | closed (address : String)
  | completionAsked (address : String) (cursor : Cursor)
  deriving Inhabited

inductive SessionFault where
  | noSuchFile
  | unsearchableSection
  | oversizedInteger
  | positionOutOfRange
  deriving DecidableEq, Inhabited

inductive Answer where
  | nothing
  | rootKnown (hasRoot : Bool)
  | items (items : List Item)
  | failed (fault : SessionFault)
  deriving Inhabited

/-- Whether editors can ask about the cursor at all: its numbers are those of 31
bits. -/
def Cursor.isAddressable (cursor : Cursor) : Bool :=
  decide (0 ≤ cursor.line ∧ cursor.line < 0x80000000) &&
    decide (0 ≤ cursor.character ∧ cursor.character < 0x80000000)

namespace Session

/-! ## Messages -/

def text? (session : Session) (address : String) : Option String :=
  session.texts.lookup (Text.percentDecoded address)

def withText (session : Session) (address text : String) : Session :=
  { session with texts := putKey (Text.percentDecoded address) text session.texts }

/-- The session with the tree of a document parsed anew.  A document that is not
open would have to be read from a file, and there is none. -/
def refreshed (session : Session) (address : String) : Except SessionFault Session :=
  match session.text? address with
  | none => .error .noSuchFile
  | some text => .ok { session with trees := putKey address (Schema.parse? text) session.trees }

def answerRefreshed (session : Session) (address : String) : Answer × Session :=
  match session.refreshed address with
  | .ok session => (.nothing, session)
  | .error fault => (.failed fault, session)

/-- The start of a session, where `file` is the settings file of the root. -/
def start (session : Session) (file : Option String) (options : Data) (hasRoot : Bool) :
    Answer × Session :=
  let session := { session with hasRoot := session.hasRoot || hasRoot }
  let file := if session.hasRoot then file else none
  match Settings.load Settings.fileName file options with
  | .ok settings => (.rootKnown session.hasRoot, { session with settings })
  | .error .unsearchableSection => (.failed .unsearchableSection, session)
  | .error .oversizedInteger => (.failed .oversizedInteger, session)
  | .error _ => (.rootKnown session.hasRoot, { session with settings := {} })

def suggestions (session : Session) (text : String) (cursor : Cursor) (tree : Option Schema) :
    List Item :=
  Completion.items (.ofText text) cursor tree session.settings.completion

/-- The answer to a question for completions.  A document that is not open has
none. -/
def complete (session : Session) (address : String) (cursor : Cursor) : Answer × Session :=
  if !cursor.isAddressable then (.failed .positionOutOfRange, session)
  else
    match session.text? address with
    | none => (.items [], session)
    | some text =>
        match session.trees.lookup address with
        | some tree => (.items (session.suggestions text cursor tree), session)
        | none =>
            let tree := Schema.parse? text
            (.items (session.suggestions text cursor tree),
              { session with trees := putKey address tree session.trees })

/-- One message, in a workspace with or without a settings file. -/
def step (file : Option String) (session : Session) : Message → Answer × Session
  | .started options hasRoot => session.start file options hasRoot
  | .opened address text => (session.withText address text).answerRefreshed address
  | .changed address text => (session.withText address text).answerRefreshed address
  | .edited address text => (.nothing, session.withText address text)
  | .saved address => session.answerRefreshed address
  | .closed address =>
      (.nothing,
        { session with
          texts := dropKey (Text.percentDecoded address) session.texts
          trees := dropKey address session.trees })
  | .completionAsked address cursor => session.complete address cursor

/-- The answers to a list of messages, each with the state after it. -/
def run (file : Option String) : Session → List Message → List (Answer × Session)
  | _, [] => []
  | session, message :: rest =>
      let after := session.step file message
      after :: run file after.2 rest

end Session

end SchemaAssist

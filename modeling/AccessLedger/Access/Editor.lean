import AccessLedger.Access.Config
import AccessLedger.Access.Difference
import AccessLedger.Access.Validation
import AccessLedger.Failure

/-!
# Editing an access configuration

The page of a project shows the stored configuration, lets its user edit a
draft of the sections, or waits for the answer to a commit.  An operation that
does not fit the phase is refused.  What the page draws is `Editor.view`.
-/

namespace AccessLedger

/-- What the page is doing. -/
inductive EditPhase where
  | readOnly
  | editing
  | submitting
  deriving DecidableEq, Repr

/-- The name of a phase. -/
def EditPhase.name : EditPhase → String
  | readOnly => "ReadOnly"
  | editing => "Editing"
  | submitting => "Submitting"

/-- The operations that are tied to a phase. -/
inductive EditAction where
  | begin
  | change
  | cancel
  | commit
  | acceptResult
  | acceptFailure
  deriving DecidableEq, Repr

namespace EditAction

/-- How an operation is called in a message. -/
def name : EditAction → String
  | begin => "edit"
  | change => "edit the draft"
  | cancel => "cancel"
  | commit => "commit"
  | acceptResult => "accept a commit result"
  | acceptFailure => "accept a commit failure"

/-- The phase that an operation needs. -/
def phase : EditAction → EditPhase
  | begin => .readOnly
  | change => .editing
  | cancel => .editing
  | commit => .editing
  | acceptResult => .submitting
  | acceptFailure => .submitting

end EditAction

/-- Why an operation of the editor is refused. -/
inductive EditFault where
  | notAnOwner
  | wrongPhase (action : EditAction) (phase : EditPhase)
  /-- The draft is not valid; `text` says why. -/
  | invalid (text : String)
  deriving DecidableEq, Repr

/-- The text of a refusal. -/
def EditFault.message : EditFault → String
  | notAnOwner => "you do not own any section of this project"
  | wrongPhase action phase => "cannot " ++ action.name ++ " while " ++ phase.name
  | invalid text => "errors must be fixed before committing: " ++ text

/-- Why a commit was not stored. -/
inductive CommitFailure where
  /-- The server refused it. -/
  | validation (text : String)
  /-- There was no answer. -/
  | transport (text : String)
  deriving DecidableEq, Repr

/-- What is sent to have a draft stored. -/
structure CommitRequest where
  project : String
  revision : String
  message : Option String
  sections : List AccessSection
  deriving DecidableEq

/-- The message of a commit without blanks at its ends; none if nothing is left. -/
def trimmedMessage (message : String) : Option String :=
  let text := Text.trim message.toList
  if text.isEmpty then none else some (String.ofList text)

/-- The state of the page. -/
structure Editor where
  phase : EditPhase
  /-- The configuration last loaded from the server or stored by it. -/
  access : AccessConfig
  draft : List AccessSection
  message : String
  warnings : List String
  error : Option String
  deriving DecidableEq

namespace Editor

/-- The page that shows a configuration. -/
def ofConfig (access : AccessConfig) : Editor where
  phase := .readOnly
  access
  draft := access.sections
  message := ""
  warnings := []
  error := none

/-- Show a configuration, forgetting the draft; the message stays. -/
def display (e : Editor) (access : AccessConfig) : Editor :=
  { e with phase := .readOnly, access, draft := access.sections, warnings := [], error := none }

/-- Perform an operation if the phase is the one it needs. -/
def guarded {α : Type} (e : Editor) (action : EditAction)
    (perform : Except EditFault α × Editor) : Except EditFault α × Editor :=
  if e.phase = action.phase then perform else (.error (.wrongPhase action e.phase), e)

/-- Change the message of the next commit. -/
def setMessage (e : Editor) (message : String) : Editor := { e with message }

/-- Change the draft. -/
def change (e : Editor) (f : List AccessSection → List AccessSection) :
    Except EditFault Unit × Editor :=
  e.guarded .change (.ok (), { e with draft := f e.draft })

/-- Start to edit a fresh copy of the stored sections. -/
def beginEdit (e : Editor) : Except EditFault Unit × Editor :=
  e.guarded .begin <|
    if e.access.ownsAny then
      (.ok (),
        { e with phase := .editing, draft := e.access.sections, warnings := [], error := none })
    else (.error .notAnOwner, e)

/-- Give the draft up. -/
def cancel (e : Editor) : Except EditFault Unit × Editor :=
  e.guarded .cancel (.ok (), e.display e.access)

/-- Submit the draft if it is valid. -/
def commit (e : Editor) : Except EditFault CommitRequest × Editor :=
  e.guarded .commit <|
    match validateSections e.draft with
    | .error fault =>
      let text := (Failure.validation fault.message).message
      (.error (.invalid text), { e with error := some text })
    | .ok () =>
      (.ok { project := e.access.project
             revision := e.access.revision
             message := trimmedMessage e.message
             sections := e.draft },
       { e with phase := .submitting })

/--
The server has stored something.  The answer names the sections that were not
stored as submitted.  If there are none, the stored configuration is shown;
else the draft stays open, based on what is stored now.
-/
def acceptResult (e : Editor) (stored : AccessConfig) : Except EditFault NameSet × Editor :=
  e.guarded .acceptResult <|
    let difference := sectionDifference e.draft stored.sections
    let e := { e with message := "", error := none }
    (.ok difference,
      if difference.isEmpty then e.display stored
      else { e with phase := .editing, access := stored, warnings := difference.names })

/-- The commit was not stored.  The message survives if the server refused the commit. -/
def acceptFailure (e : Editor) (failure : CommitFailure) : Except EditFault Unit × Editor :=
  e.guarded .acceptFailure
    (.ok (), match failure with
      | .validation text => { e with phase := .editing, warnings := [], error := some text }
      | .transport text =>
        { e with phase := .editing, warnings := [], error := some text, message := "" })

end Editor

/-- What the page draws. -/
structure EditView where
  access : AccessConfig
  sections : List AccessSection
  editing : Bool
  editToolsVisible : Bool
  editEnabled : Bool
  commitToolsVisible : Bool
  controlsEnabled : Bool
  message : String
  warnings : List String
  error : Option String
  deriving DecidableEq

/-- What the page draws in a state. -/
def Editor.view (e : Editor) : EditView where
  access := e.access
  sections := if e.phase = .readOnly then e.access.sections else e.draft
  editing := e.phase ≠ .readOnly
  editToolsVisible := e.access.ownsAny
  editEnabled := e.access.ownsAny && e.phase = .readOnly
  commitToolsVisible := e.phase ≠ .readOnly
  controlsEnabled := e.phase ≠ .submitting
  message := e.message
  warnings := e.warnings
  error := e.error

end AccessLedger

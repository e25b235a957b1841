import RemoteControl.Settings.Config

/-!
# The options dialog

optionsFrame.cpp, as far as it deals with settings. A control the player failed to
create is `none`: it reads as unchecked or leaves its setting alone, and setting it
does nothing.
-/

namespace RemoteControl

/-- The controls and what they show. -/
structure Controls where
  authGroup : Option Bool
  userEdit : Option Bytes
  passEdit : Option Bytes
  physicalDeletionCheck : Option Bool
  browseFilesCheck : Option Bool
  uploadTracksCheck : Option Bool
  uploadFolderEdit : Option Bytes
  schedulerCheck : Option Bool
  /-- One check box for each interface shown, by the interface's id. -/
  interfaceChecks : List (Bytes × Bool)

/-- `FForm` with its controls, and `FSettings`. -/
structure OptionsFrame where
  form : Option Controls := none
  settings : Settings := {}

namespace OptionsFrame

variable (md5Hex : Bytes → Bytes) (platform : Platform)

def isChecked (control : Option Bool) : Bool := control.getD false

/-- Put the settings into the controls. -/
def showSettings (s : Settings) (c : Controls) : Controls where
  authGroup := c.authGroup.map fun _ => s.auth.enabled
  userEdit := c.userEdit.map fun _ => s.auth.username
  passEdit := c.passEdit.map fun _ => []
  physicalDeletionCheck := c.physicalDeletionCheck.map fun _ => s.features.physicalDeletion
  browseFilesCheck := c.browseFilesCheck.map fun _ => s.features.browseFiles
  uploadTracksCheck := c.uploadTracksCheck.map fun _ => s.features.uploadTracks
  uploadFolderEdit := c.uploadFolderEdit.map fun _ => s.features.effectiveUploadFolder platform
  schedulerCheck := c.schedulerCheck.map fun _ => s.features.scheduler
  interfaceChecks := c.interfaceChecks.map fun check =>
    (check.1, check.1 ∉ s.excludedInterfaces)

def loadFromSettings (store : ConfigStore) (frame : OptionsFrame) : OptionsFrame :=
  let settings := Settings.load platform store
  { form := frame.form.map (showSettings platform settings), settings := settings }

/-- The form is built once; `controls` are the ones the player could create. -/
def createFrame (store : ConfigStore) (controls : Controls) (frame : OptionsFrame) :
    OptionsFrame :=
  match frame.form with
  | some _ => frame
  | none => loadFromSettings platform store { frame with form := some controls }

def destroyFrame (frame : OptionsFrame) : OptionsFrame := { frame with form := none }

/-- The user name `SaveToSettings` takes over. -/
def editedUsername (s : Settings) (c : Controls) : Bytes := c.userEdit.getD s.auth.username

def editedPassword (c : Controls) : Bytes := c.passEdit.getD []

def editedAuth (s : Settings) (c : Controls) : AuthSettings :=
  let username := editedUsername s c
  let password := editedPassword c
  { enabled := isChecked c.authGroup
    username := username
    ha1 :=
      if password ≠ [] then computeHa1 md5Hex username password
      else if username ≠ s.auth.username then []
      else s.auth.ha1 }

/-- One interface's check box brought into the exclusion list. -/
def editExcluded (excluded : List Bytes) (check : Bytes × Bool) : List Bytes :=
  if check.2 = false ∧ check.1 ∉ excluded then excluded ++ [check.1]
  else if check.2 = true ∧ check.1 ∈ excluded then excluded.erase check.1
  else excluded

/-- The settings `SaveToSettings` puts together from `FSettings` and the controls. -/
def editedSettings (s : Settings) (c : Controls) : Settings where
  auth := editedAuth md5Hex s c
  features := {
    physicalDeletion := isChecked c.physicalDeletionCheck
    browseFiles := isChecked c.browseFilesCheck
    uploadTracks := isChecked c.uploadTracksCheck
    uploadFolder :=
      match c.uploadFolderEdit with
      | some text => uploadFolderForStorage platform text
      | none => s.features.uploadFolder
    scheduler := isChecked c.schedulerCheck }
  excludedInterfaces := c.interfaceChecks.foldl editExcluded s.excludedInterfaces

/-- `SaveToSettings`: the new store and frame, and the settings handed on; without a
form nothing happens. -/
def saveToSettings (store : ConfigStore) (frame : OptionsFrame) :
    Option (ConfigStore × OptionsFrame × Settings) :=
  match frame.form with
  | none => none
  | some c =>
    let s := editedSettings md5Hex platform frame.settings c
    some (s.save platform store,
      { form := some { c with passEdit := c.passEdit.map fun _ => [] }, settings := s }, s)

/-! ## Edits -/

/-- What the user can do to the controls. -/
inductive Edit
  | auth (checked : Bool)
  | username (text : Bytes)
  | password (text : Bytes)
  | physicalDeletion (checked : Bool)
  | browseFiles (checked : Bool)
  | uploadTracks (checked : Bool)
  | uploadFolder (text : Bytes)
  | scheduler (checked : Bool)
  | interface (id : Bytes) (checked : Bool)

def Edit.apply (c : Controls) : Edit → Controls
  | .auth checked => { c with authGroup := c.authGroup.map fun _ => checked }
  | .username text => { c with userEdit := c.userEdit.map fun _ => text }
  | .password text => { c with passEdit := c.passEdit.map fun _ => text }
  | .physicalDeletion checked =>
    { c with physicalDeletionCheck := c.physicalDeletionCheck.map fun _ => checked }
  | .browseFiles checked => { c with browseFilesCheck := c.browseFilesCheck.map fun _ => checked }
  | .uploadTracks checked => { c with uploadTracksCheck := c.uploadTracksCheck.map fun _ => checked }
  | .uploadFolder text => { c with uploadFolderEdit := c.uploadFolderEdit.map fun _ => text }
  | .scheduler checked => { c with schedulerCheck := c.schedulerCheck.map fun _ => checked }
  | .interface id checked =>
    { c with interfaceChecks := c.interfaceChecks.map fun check =>
        if check.1 = id then (id, checked) else check }

end OptionsFrame

end RemoteControl

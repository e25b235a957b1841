import RemoteControl.Settings.Auth
import Mathlib.Logic.Function.Basic

/-!
# Settings and their storage

settings.cpp: what `Settings::Load` reads from the player's configuration and
what `Settings::Save` writes there.
-/

namespace RemoteControl

/-! ## The player's configuration -/

inductive ConfigKey
  | authEnabled
  | authUsername
  | authHa1
  | featPhysicalDeletion
  | featUploadTracks
  | featUploadFolder
  | featScheduler
  | featBrowseFiles
  | netExcludedInterfaces
deriving DecidableEq

/-- `IAIMPServiceConfig` as `ConfigStore` uses it: what was last stored under a key. -/
structure ConfigStore where
  strings : ConfigKey → Option Bytes
  ints : ConfigKey → Option Int

namespace ConfigStore

def empty : ConfigStore := ⟨fun _ => none, fun _ => none⟩

def getString (store : ConfigStore) (key : ConfigKey) : Bytes := (store.strings key).getD []

def getInt (store : ConfigStore) (key : ConfigKey) (fallback : Int) : Int :=
  (store.ints key).getD fallback

def setString (store : ConfigStore) (key : ConfigKey) (value : Bytes) : ConfigStore :=
  { store with strings := Function.update store.strings key (some value) }

def setInt (store : ConfigStore) (key : ConfigKey) (value : Int) : ConfigStore :=
  { store with ints := Function.update store.ints key (some value) }

def delete (store : ConfigStore) (key : ConfigKey) : ConfigStore :=
  ⟨Function.update store.strings key none, Function.update store.ints key none⟩

end ConfigStore

/-! ## Lists and folders -/

/-- The loop of `SplitList` from `start` on; every turn moves `start` forward. -/
def splitLoop (joined : Bytes) (separator : UInt8) : Nat → Nat → List Bytes
  | 0, _ => []
  | turns + 1, start =>
    if start ≤ joined.length then
      let rest := joined.drop start
      let stop := findByte separator rest
      let item := match stop with
        | none => rest
        | some n => rest.take n
      let items := match stop with
        | none => []
        | some n => splitLoop joined separator turns (start + n + 1)
      if item ≠ [] then item :: items else items
    else []

def splitList (joined : Bytes) (separator : UInt8) : List Bytes :=
  splitLoop joined separator (joined.length + 1) 0

def joinList (items : List Bytes) (separator : UInt8) : Bytes :=
  items.foldl (fun joined item => joined ++ (if joined = [] then [] else [separator]) ++ item) []

/-- The character between two interface ids, `'|'`. -/
def interfaceListSeparator : UInt8 := 124

/-- What `settings.cpp` takes from the system: `std::filesystem`'s normal form of a
path, and the music folder. -/
structure Platform where
  lexicallyNormal : Bytes → Bytes
  defaultUploadFolder : Bytes

/-- Drop the slashes a reversed path begins with, all but the last character. -/
def popSlashes : Bytes → Bytes
  | 47 :: b :: s => popSlashes (b :: s)
  | s => s

def canonicalFolder (platform : Platform) (folder : Bytes) : Bytes :=
  (popSlashes (platform.lexicallyNormal folder).reverse).reverse

/-- `UploadFolderForStorage`: the default folder is stored as the empty string. -/
def uploadFolderForStorage (platform : Platform) (folder : Bytes) : Bytes :=
  if folder = [] ∨
      canonicalFolder platform folder = canonicalFolder platform platform.defaultUploadFolder then
    []
  else folder

/-! ## Settings -/

structure FeatureSettings where
  physicalDeletion : Bool := false
  uploadTracks : Bool := false
  scheduler : Bool := false
  browseFiles : Bool := false
  uploadFolder : Bytes := []
deriving DecidableEq

def FeatureSettings.effectiveUploadFolder (platform : Platform) (f : FeatureSettings) : Bytes :=
  if f.uploadFolder = [] then platform.defaultUploadFolder else f.uploadFolder

structure Settings where
  auth : AuthSettings := {}
  features : FeatureSettings := {}
  excludedInterfaces : List Bytes := []
deriving DecidableEq

namespace Settings

/-- `Settings::Load`. -/
def load (platform : Platform) (store : ConfigStore) : Settings where
  auth := {
    enabled := store.getInt .authEnabled 0 ≠ 0
    username := store.getString .authUsername
    ha1 := store.getString .authHa1 }
  features := {
    physicalDeletion := store.getInt .featPhysicalDeletion 0 ≠ 0
    uploadTracks := store.getInt .featUploadTracks 0 ≠ 0
    uploadFolder := uploadFolderForStorage platform (store.getString .featUploadFolder)
    scheduler := store.getInt .featScheduler 0 ≠ 0
    browseFiles := store.getInt .featBrowseFiles 0 ≠ 0 }
  excludedInterfaces := splitList (store.getString .netExcludedInterfaces) interfaceListSeparator

def boolInt (b : Bool) : Int := if b then 1 else 0

/-- `Settings::Save`. -/
def save (platform : Platform) (s : Settings) (store : ConfigStore) : ConfigStore :=
  let store := store.setInt .authEnabled (boolInt s.auth.enabled)
  let store := store.setString .authUsername s.auth.username
  let store := store.setString .authHa1 s.auth.ha1
  let store := store.setInt .featPhysicalDeletion (boolInt s.features.physicalDeletion)
  let store := store.setInt .featUploadTracks (boolInt s.features.uploadTracks)
  let store := store.setString .featUploadFolder
    (uploadFolderForStorage platform s.features.uploadFolder)
  let store := store.setInt .featScheduler (boolInt s.features.scheduler)
  let store := store.setInt .featBrowseFiles (boolInt s.features.browseFiles)
  if s.excludedInterfaces = [] then store.delete .netExcludedInterfaces
  else store.setString .netExcludedInterfaces
    (joinList s.excludedInterfaces interfaceListSeparator)

@[simp] theorem load_save_auth (platform : Platform) (s : Settings) (store : ConfigStore) :
    (load platform (s.save platform store)).auth = s.auth := by
  obtain ⟨⟨enabled, username, ha1⟩, features, excluded⟩ := s
  unfold save
  dsimp only
  split <;> cases enabled <;> rfl

end Settings

end RemoteControl

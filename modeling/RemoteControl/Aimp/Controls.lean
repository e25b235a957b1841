import RemoteControl.Aimp.Core

/-!
# The player's controls

What the SDK lets the commands change besides playlists and the queue: the track that is
played, the mark and the playing switch of an item, and the properties behind the message
dispatcher. A value that is read back after it was set is what the player then answers.
-/

namespace RemoteControl

/-- The setters of an item, and `Play2`. -/
structure PlayerControls (ι : Type) where
  play2 : ι → HRESULT
  /-- `SetValueAsFloat(AIMP_PLAYLISTITEM_PROPID_MARK, rating)`. -/
  setMark : ι → Rat → HRESULT
  /-- The mark as it is read after that. -/
  markAfter : ι → Rat → Option Rat
  /-- `SetValueAsInt32(AIMP_PLAYLISTITEM_PROPID_PLAYINGSWITCH, value)`. -/
  setPlayingSwitch : ι → Int → HRESULT

/-- The `AIMP_MSG_PROPERTY_` messages that Status sends. -/
inductive DispatcherProperty
  | volume
  | mute
  | balance
  | chorus
  | echo
  | enhancer
  | flanger
  | reverb
  | pitch
  | speed
  | tempo
  | trueBass
  | preamp
  | equalizer
  | equalizerBand
  | playerState
  | playerPosition
  | playerDuration
  | repeatMode
  | shuffle
  | minimizedToTray
  | repeatSingleFilePlaylists
  | actionOnEndOfPlaylist
  | stopAfterTrack
  | radioCap
deriving DecidableEq

/-- `IAIMPServiceMessageDispatcher::Send` of a property with the high word of `Param1`. -/
structure MessageDispatcher where
  set : DispatcherProperty → Nat → Rat → HRESULT
  /-- A `float`, read after the value was set when one is given. -/
  getFloat : DispatcherProperty → Nat → Option Rat → Option Rat
  /-- A `BOOL` or an `INT32`. -/
  getInt : DispatcherProperty → Nat → Option Int → Option Int

end RemoteControl

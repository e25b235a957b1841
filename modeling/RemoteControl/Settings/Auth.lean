import RemoteControl.Std.Bytes

/-!
# Authentication settings

MD5 comes from a library; `md5Hex` is a parameter wherever it is needed.
-/

namespace RemoteControl

/-- `PLUGIN_AUTH_REALM`. -/
def authRealm : Bytes := ascii "AIMP Remote Control"

/-- `Settings::AuthSettings`. -/
structure AuthSettings where
  enabled : Bool := false
  username : Bytes := []
  ha1 : Bytes := []
deriving DecidableEq

def AuthSettings.isActive (s : AuthSettings) : Bool := s.enabled && s.username ≠ [] && s.ha1 ≠ []

def computeHa1 (md5Hex : Bytes → Bytes) (username password : Bytes) : Bytes :=
  md5Hex (username ++ ascii ":" ++ authRealm ++ ascii ":" ++ password)

end RemoteControl

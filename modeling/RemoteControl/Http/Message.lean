import RemoteControl.Std.Bytes

/-!
# HTTP requests and responses

The parts of `httplib::Request` and `httplib::Response` the plugin reads and sets.
-/

namespace RemoteControl

def toLower (b : UInt8) : UInt8 := if 65 ≤ b && b ≤ 90 then b + 32 else b

namespace Http

structure Request where
  method : Bytes
  /-- The decoded path. -/
  path : Bytes
  /-- The request target as it was sent. -/
  target : Bytes
  headers : List (Bytes × Bytes)

/-- The first value of a header; names are compared without case. -/
def Request.header? (req : Request) (name : Bytes) : Option Bytes :=
  (req.headers.find? fun h => h.1.map toLower = name.map toLower).map Prod.snd

structure Response where
  status : Int := -1
  headers : List (Bytes × Bytes) := []
  body : Bytes := []
  contentType : Bytes := []

end Http

end RemoteControl

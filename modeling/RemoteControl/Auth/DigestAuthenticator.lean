import RemoteControl.Http.Message
import RemoteControl.Settings.Auth

/-!
# DigestAuthenticator

Digest authentication without server state: a nonce is a time stamp with its hash
under a secret derived from the stored HA1. `md5Hex` and the header parser
`parse` are library functions.

`Authorize` looks at the shared settings up to three times, and at the clock up to
twice; `Reads` holds what it sees each time.
-/

namespace RemoteControl

/-- The constant-time comparison's loop over the common length. -/
def diffLoop : UInt8 → Bytes → Bytes → UInt8
  | diff, x :: a, y :: b => diffLoop (diff ||| (x ^^^ y)) a b
  | diff, _, _ => diff

def equalConstantTime (a b : Bytes) : Bool :=
  diffLoop (if a.length = b.length then 0 else 1) a b == 0

/-- `RequestPathOf`. -/
def requestPathOf (digestUri : Bytes) : Bytes :=
  match findFrom (ascii "://") digestUri 0 with
  | none => digestUri
  | some scheme =>
    match findFrom (ascii "/") digestUri (scheme + 3) with
    | none => ascii "/"
    | some slash => digestUri.drop slash

namespace DigestAuthenticator

/-- `NonceLifetime`, 15 minutes, in seconds. -/
def nonceLifetime : Int := 15 * 60

/-- Whether a nonce is one of ours, and if so whether it is still fresh. -/
inductive NonceState
  | invalid
  | valid
  | expired
deriving DecidableEq

variable (md5Hex : Bytes → Bytes)

def nonceSecret (settings : AuthSettings) : Bytes := md5Hex (ascii "nonce:" ++ settings.ha1)

/-- `MakeNonce`, with the clock's reading. -/
def makeNonce (settings : AuthSettings) (now : Int) : Bytes :=
  let ts := toDecimal now
  ts ++ ascii ":" ++ md5Hex (ts ++ ascii ":" ++ nonceSecret md5Hex settings)

/-- `CheckNonce`. The age is an exact integer: the source's subtraction may not
overflow. -/
def checkNonce (settings : AuthSettings) (now : Int) (nonce : Bytes) : NonceState :=
  match findByte 58 nonce with
  | none => .invalid
  | some colon =>
    let ts := nonce.take colon
    if nonce.drop (colon + 1) ≠ md5Hex (ts ++ ascii ":" ++ nonceSecret md5Hex settings) then
      .invalid
    else
      match stoll ts with
      | none => .invalid
      | some issued => if now - issued ≤ nonceLifetime then .valid else .expired

/-- The header a refused client gets. -/
def challengeHeader (settings : AuthSettings) (now : Int) (stale : Bool) : Bytes :=
  ascii "Digest realm=\"" ++ authRealm ++ ascii "\", qop=\"auth\", algorithm=MD5, nonce=\"" ++
    makeNonce md5Hex settings now ++ ascii "\"" ++ if stale then ascii ", stale=true" else []

def challenge (settings : AuthSettings) (now : Int) (res : Http.Response) (stale : Bool) :
    Http.Response where
  status := 401
  headers := res.headers ++ [(ascii "WWW-Authenticate", challengeHeader md5Hex settings now stale)]
  body := ascii "Unauthorized"
  contentType := ascii "text/plain"

/-- What one call of `Authorize` reads: the settings when it copies them, when it
checks the nonce and when it makes one for a challenge, and the clock for the
latter two. -/
structure Reads where
  settings : AuthSettings
  checkSettings : AuthSettings
  checkTime : Int
  challengeSettings : AuthSettings
  challengeTime : Int

/-- The reads of a call during which the settings stay the same. -/
def Reads.steady (settings : AuthSettings) (checkTime challengeTime : Int) : Reads :=
  ⟨settings, settings, checkTime, settings, challengeTime⟩

/-- A field of the parsed header; a missing one reads as empty. -/
def fieldOf (fields : Bytes → Option Bytes) (k : String) : Bytes := (fields (ascii k)).getD []

/-- The response `Authorize` expects: RFC 7616 with `qop=auth`, RFC 2069 without
`qop`, and none for another `qop`. -/
def expectedResponse (settings : AuthSettings) (method : Bytes) (field : String → Bytes) :
    Option Bytes :=
  let ha2 := md5Hex (method ++ ascii ":" ++ field "uri")
  if field "qop" = [] then
    some (md5Hex (settings.ha1 ++ ascii ":" ++ field "nonce" ++ ascii ":" ++ ha2))
  else if field "qop" = ascii "auth" then
    some (md5Hex (settings.ha1 ++ ascii ":" ++ field "nonce" ++ ascii ":" ++ field "nc" ++
      ascii ":" ++ field "cnonce" ++ ascii ":auth:" ++ ha2))
  else none

/-- `Authorize`. The header parser is any function to a field map. -/
def authorize (parse : Bytes → Bytes → Option Bytes) (reads : Reads) (req : Http.Request)
    (res : Http.Response) : Bool × Http.Response :=
  let refuse (stale : Bool) : Bool × Http.Response :=
    (false, challenge md5Hex reads.challengeSettings reads.challengeTime res stale)
  let settings := reads.settings
  if settings.isActive = false then (true, res)
  else
    match req.header? (ascii "Authorization") with
    | none => refuse false
    | some header =>
      let field := fieldOf (parse header)
      if field "username" ≠ settings.username ∨ field "realm" ≠ authRealm then refuse false
      else
        let signedUri := requestPathOf (field "uri")
        if signedUri ≠ req.path ∧ signedUri ≠ req.target then refuse false
        else
          match checkNonce md5Hex reads.checkSettings reads.checkTime (field "nonce") with
          | .invalid => refuse false
          | nonceState =>
            match expectedResponse md5Hex settings req.method field with
            | none => refuse false
            | some expected =>
              if equalConstantTime expected (field "response") = false then refuse false
              else if nonceState = .expired then refuse true
              else (true, res)

end DigestAuthenticator

end RemoteControl

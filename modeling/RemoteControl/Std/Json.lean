import RemoteControl.Lib.Binary64
import RemoteControl.Std.Bytes

/-!
# JSON values

The values requests and replies are made of, and the reads the commands do. A number
that C++ holds as a `double` is the rational it stands for.
-/

namespace RemoteControl

inductive Json
  | null
  | bool (b : Bool)
  | int (n : Int)
  | float (x : Rat)
  | str (s : Bytes)
  | arr (xs : List Json)
  | obj (members : List (Bytes × Json))

namespace Json

/-- `contains(key)` with `operator[]`; only an object contains anything. -/
def member (json : Json) (key : Bytes) : Option Json :=
  match json with
  | .obj members => (members.find? fun m => m.1 = key).map Prod.snd
  | _ => none

/-- `get<std::int32_t>` of a member that `is_number_integer`: a narrowing cast. -/
def int32 (json : Json) (key : Bytes) : Option (BitVec 32) :=
  match json.member key with
  | some (.int n) => some (BitVec.ofInt 32 n)
  | _ => none

/-- A member that `is_string`. -/
def string (json : Json) (key : Bytes) : Option Bytes :=
  match json.member key with
  | some (.str s) => some s
  | _ => none

/-- A member that `is_array`. -/
def array (json : Json) (key : Bytes) : Option (List Json) :=
  match json.member key with
  | some (.arr xs) => some xs
  | _ => none

/-- A member that `is_boolean`. -/
def boolean (json : Json) (key : Bytes) : Option Bool :=
  match json.member key with
  | some (.bool b) => some b
  | _ => none

/-- `get<double>` of a member that `is_number`. -/
def number (json : Json) (key : Bytes) : Option Rat :=
  match json.member key with
  | some (.int n) => some (Binary64.round n)
  | some (.float x) => some x
  | _ => none

/-- `get<std::vector<std::string>>` of an array; `none` is a `type_error`. -/
def strings : List Json → Option (List Bytes)
  | [] => some []
  | .str s :: xs => (strings xs).map (s :: ·)
  | _ => none

/-- `value(key, fallback)` of an object; `none` is a `type_error`. -/
def boolValue (json : Json) (key : Bytes) (fallback : Bool) : Option Bool :=
  match json.member key with
  | none => some fallback
  | some (.bool b) => some b
  | some _ => none

/-- `value(key, std::string())` of an object; `none` is a `type_error`. -/
def stringValue (json : Json) (key : Bytes) : Option Bytes :=
  match json.member key with
  | none => some []
  | some (.str s) => some s
  | some _ => none

/-- `value(key, std::vector<std::string>{})` of an object; `none` is a `type_error`. -/
def stringsValue (json : Json) (key : Bytes) : Option (List Bytes) :=
  match json.member key with
  | none => some []
  | some (.arr xs) => strings xs
  | some _ => none

end Json

end RemoteControl

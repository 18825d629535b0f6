/-!
# JSON values

A JSON value keeps the members of an object in the order in which they are to be written. A number is
an integer or the bits of a double-precision float.
-/

namespace Courseware

/-- A JSON value. -/
inductive Json
  | null
  | bool (value : Bool)
  | int (value : Int)
  | float (bits : UInt64)
  | string (value : String)
  | array (items : List Json)
  | object (members : List (String × Json))
deriving Repr, Inhabited

namespace Json

/-- The JSON value of characters. -/
def text (value : List Char) : Json := string (String.ofList value)

/-- The JSON value of a natural number. -/
def nat (value : Nat) : Json := int value

/-- A value that may be absent, as a member of an object that leaves absent members out. -/
def member? (key : String) (value : Option Json) : List (String × Json) :=
  match value with
  | some value => [(key, value)]
  | none => []

/-- An absent value is written as `null`. -/
def ofOption (value : Option Json) : Json := value.getD null

/-- The value of a member of an object. -/
def get? (json : Json) (key : String) : Option Json :=
  match json with
  | object members => members.lookup key
  | _ => none

/-- Insert a member into members that are sorted by key. A member with the same key is replaced. -/
def insertMember (key : String) (value : Json) : List (String × Json) → List (String × Json)
  | [] => [(key, value)]
  | (first, old) :: rest =>
    if key < first then (key, value) :: (first, old) :: rest
    else if key = first then (key, value) :: rest
    else (first, old) :: insertMember key value rest

/-- The object of some members, sorted by key. Of several members with one key the last is kept. -/
def ofMembers (members : List (String × Json)) : Json :=
  object (members.foldl (fun sorted (key, value) => insertMember key value sorted) [])

end Json
end Courseware

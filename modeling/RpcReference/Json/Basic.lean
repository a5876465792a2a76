import RpcReference.Table
import RpcReference.Decimal.Binary64

/-!
# JSON values

The value that both document formats are read into and written from.

* `Number` — an integer, or a binary64 number for everything that is not written as an integer in
  range.
* `Json` — the values.  An object is the list of its members in the order of their first
  appearance.
* `Json.get?`, `Json.text?`, `Json.items?`, `Json.members?` — looking into a value without assuming
  its shape.
-/

set_option autoImplicit false

namespace RpcReference

-- Powers are those of the core library, whatever else is imported.
attribute [local instance (high)] instPowNat

/-- A JSON number. -/
inductive Number where
  /-- A number written without point and exponent that fits 64 bits. -/
  | int (n : Int)
  /-- Any other number. -/
  | float (x : Binary64)
deriving DecidableEq, Inhabited

namespace Number

/-- The least integer that is read as an integer. -/
def leastInt : Int := -2 ^ (63 : Nat)

/-- The greatest integer that is read as an integer. -/
def greatestInt : Int := 2 ^ (64 : Nat) - 1

end Number

/-- A JSON value. -/
inductive Json where
  /-- The value `null`. -/
  | null
  /-- A truth value. -/
  | bool (b : Bool)
  /-- A number. -/
  | number (n : Number)
  /-- A string. -/
  | string (s : String)
  /-- A list. -/
  | array (items : List Json)
  /-- An object: its members in order. -/
  | object (members : List (String × Json))
deriving Inhabited

namespace Json

/-! ## Looking into a value -/

/-- The text of a string. -/
def text? : Json → Option String
  | string s => some s
  | _ => none

/-- The items of a list. -/
def items? : Json → Option (List Json)
  | array items => some items
  | _ => none

/-- The members of an object. -/
def members? : Json → Option (Table String Json)
  | object members => some members
  | _ => none

/-- The value of a key in an object; none in any other value. -/
def get? (key : String) (value : Json) : Option Json := value.members?.bind (Table.get? key)

/-- The text of a member that is a string. -/
def textAt? (key : String) (value : Json) : Option String := (value.get? key).bind text?

/-! ## Building values -/

/-- A list of strings. -/
def strings (texts : List String) : Json := array (texts.map string)

/-- An integer. -/
def int (n : Int) : Json := number (.int n)

end Json
end RpcReference

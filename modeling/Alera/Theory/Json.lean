/-
# Alera.Theory.Json -- JSON values and the texts they are written as

Values over an arbitrary type of numbers, of which only the text is known
(`display`).  An object is the list of its members in the order of the map.

`nodes` lists a value and everything in it with its depth, in the order of a walk
that keeps what is still to do on a stack and pushes the children of what it takes
off.  `compact` and `pretty` are the two texts that a value is written as; strings
are written as they are but for quotes, backslashes and control characters.
-/
import Mathlib.Data.List.Basic

namespace Alera.Theory

set_option autoImplicit false

inductive Json (N : Type) where
  | null
  | bool (value : Bool)
  | num (value : N)
  | str (value : List Char)
  | arr (items : List (Json N))
  | obj (members : List (List Char × Json N))

namespace Json

variable {N : Type}

/-- The values right inside a value. -/
def children : Json N → List (Json N)
  | .arr items => items
  | .obj members => members.map Prod.snd
  | _ => []

/-- `get`: the member of an object with the given key. -/
def get? (value : Json N) (key : List Char) : Option (Json N) :=
  match value with
  | .obj members => (members.find? fun member => member.1 = key).map Prod.snd
  | _ => none

def asStr : Json N → Option (List Char)
  | .str value => some value
  | _ => none

def asObject : Json N → Option (List (List Char × Json N))
  | .obj members => some members
  | _ => none

def asArray : Json N → Option (List (Json N))
  | .arr items => some items
  | _ => none

def isBoolean : Json N → Bool
  | .bool _ => true
  | _ => false

/-- A value, and what is in it, with depths; last child first. -/
def nodes : Nat → Json N → List (Json N × Nat)
  | depth, .arr items => (.arr items, depth) :: itemNodes (depth + 1) items
  | depth, .obj members => (.obj members, depth) :: memberNodes (depth + 1) members
  | depth, .null => [(.null, depth)]
  | depth, .bool value => [(.bool value, depth)]
  | depth, .num value => [(.num value, depth)]
  | depth, .str value => [(.str value, depth)]
where
  itemNodes : Nat → List (Json N) → List (Json N × Nat)
    | _, [] => []
    | depth, item :: rest => itemNodes depth rest ++ nodes depth item
  memberNodes : Nat → List (List Char × Json N) → List (Json N × Nat)
    | _, [] => []
    | depth, (_, value) :: rest => memberNodes depth rest ++ nodes depth value

/-! ## Texts -/

def hexDigit (n : Nat) : Char := if n < 10 then Char.ofNat (48 + n) else Char.ofNat (87 + n)

/-- A character inside a string. -/
def escape (c : Char) : List Char :=
  if c = '"' then ['\\', '"']
  else if c = '\\' then ['\\', '\\']
  else if c.val = 0x08 then ['\\', 'b']
  else if c.val = 0x09 then ['\\', 't']
  else if c.val = 0x0a then ['\\', 'n']
  else if c.val = 0x0c then ['\\', 'f']
  else if c.val = 0x0d then ['\\', 'r']
  else if c.val < 0x20 then
    ['\\', 'u', '0', '0', hexDigit (c.toNat / 16), hexDigit (c.toNat % 16)]
  else [c]

def quote (text : List Char) : List Char := '"' :: text.flatMap escape ++ ['"']

def literal : Bool → List Char
  | true => "true".toList
  | false => "false".toList

/-- Written without blanks. -/
def compact (display : N → List Char) : Json N → List Char
  | .null => "null".toList
  | .bool value => literal value
  | .num value => display value
  | .str value => quote value
  | .arr items => '[' :: compactItems items ++ [']']
  | .obj members => '\x7b' :: compactMembers members ++ ['\x7d']
where
  compactItems : List (Json N) → List Char
    | [] => []
    | [item] => compact display item
    | item :: rest => compact display item ++ ',' :: compactItems rest
  compactMembers : List (List Char × Json N) → List Char
    | [] => []
    | [(key, value)] => quote key ++ ':' :: compact display value
    | (key, value) :: rest => quote key ++ ':' :: compact display value ++ ',' :: compactMembers rest

/-- A new line at the given level, two blanks each. -/
def newLine (level : Nat) : List Char := '\n' :: List.replicate (2 * level) ' '

/-- Written with one item to a line. -/
def pretty (display : N → List Char) : Nat → Json N → List Char
  | _, .null => "null".toList
  | _, .bool value => literal value
  | _, .num value => display value
  | _, .str value => quote value
  | _, .arr [] => "[]".toList
  | level, .arr items => '[' :: prettyItems (level + 1) items ++ newLine level ++ [']']
  | _, .obj [] => ['\x7b', '\x7d']
  | level, .obj members => '\x7b' :: prettyMembers (level + 1) members ++ newLine level ++ ['\x7d']
where
  prettyItems : Nat → List (Json N) → List Char
    | _, [] => []
    | level, [item] => newLine level ++ pretty display level item
    | level, item :: rest => newLine level ++ pretty display level item ++ ',' :: prettyItems level rest
  prettyMembers : Nat → List (List Char × Json N) → List Char
    | _, [] => []
    | level, [(key, value)] => newLine level ++ quote key ++ ": ".toList ++ pretty display level value
    | level, (key, value) :: rest =>
      newLine level ++ quote key ++ ": ".toList ++ pretty display level value ++
        ',' :: prettyMembers level rest

end Json

end Alera.Theory

import QRadarDashboard.Lib.Dict
import QRadarDashboard.Lib.PyText

/-!
# Names in a directory (`app/security/ldap_names.py`)
-/

namespace QRadarDashboard.Security
open Lib

def hexEscapes : Dict Char String :=
  [('\\', "\\5c"), (',', "\\2c"), ('+', "\\2b"), ('"', "\\22"), ('<', "\\3c"), ('>', "\\3e"), (';', "\\3b"), ('=', "\\3d"),
    ('*', "\\2a"), ('(', "\\28"), (')', "\\29"), ('\x00', "\\00")]

/-- The format `02x`. -/
def hex02 (code : Nat) : List Char := (Nat.toDigits 16 code).leftpad 2 '0'

/-- What one turn of the loop appends for the character at `index`. -/
def escapedChar (last : Nat) (ch : Char) (index : Nat) : List Char :=
  match hexEscapes.get? ch with
  | some escape => escape.toList
  | none =>
    if ch = ' ' ∧ (index = 0 ∨ index = last) then "\\20".toList
    else if ch = '#' ∧ index = 0 then "\\23".toList
    else if ch.toNat < 32 ∨ ch.toNat = 127 then '\\' :: hex02 ch.toNat
    else [ch]

def escapeLdapName (value : List Char) : List Char :=
  if value = [] then value
  else value.zipIdx.flatMap (fun item => escapedChar (value.length - 1) item.1 item.2)

def usernamePlaceholder : List Char := "\x7busername\x7d".toList

def renderBindName (template username : List Char) : List Char :=
  replaceText usernamePlaceholder (escapeLdapName username) template

/-! ## What a reader of the escaped text makes of it -/

def hexValue (c : Char) : Option Nat :=
  if '0' ≤ c ∧ c ≤ '9' then some (c.toNat - 48)
  else if 'a' ≤ c ∧ c ≤ 'f' then some (c.toNat - 87)
  else if 'A' ≤ c ∧ c ≤ 'F' then some (c.toNat - 55)
  else none

def unescape : List Char → List Char
  | '\\' :: hi :: lo :: rest =>
    match hexValue hi, hexValue lo with
    | some x, some y => Char.ofNat (16 * x + y) :: unescape rest
    | _, _ => '\\' :: unescape (hi :: lo :: rest)
  | c :: rest => c :: unescape rest
  | [] => []

def isControl (c : Char) : Bool := c.toNat < 32 || (127 ≤ c.toNat && c.toNat < 160)

end QRadarDashboard.Security

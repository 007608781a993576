import QRadarDashboard.Lib.Json
import Mathlib.Data.List.Infix
import Mathlib.Data.List.SplitBy
import Mathlib.Data.String.Basic

/-!
# Redaction (`app/security/redaction.py`)

What stands under a correlation id is kept.
-/

namespace QRadarDashboard.Security
open Lib

variable {φ : Type}

def mask : String := "***redacted***"

/-- The letter that a match without regard to case compares: U+0130 and U+0131 as an i, U+017F as an s, U+212A as a k.
-/
def ignoreCase (c : Char) : Char :=
  if c = '\u0130' ∨ c = '\u0131' then 'i' else if c = '\u017f' then 's' else if c = '\u212a' then 'k' else c.toLower

/-- The alternatives of `_SECRET_KEY_RE`; `api[_-]?key` stands for three. -/
def secretWords : List String :=
  ["token", "secret", "password", "passwd", "apikey", "api_key", "api-key", "authorization", "sec", "webhook", "smtp_password"]

/-- `_SECRET_KEY_RE.search` -/
def secretKey (key : String) : Bool :=
  secretWords.any (fun word => word.toList <:+: key.toList.map ignoreCase)

def identifierKeys : List String := ["correlation_id", "instance_id"]

/-- The characters of `_TOKEN_VALUE_RE`. -/
def isTokenChar (c : Char) : Bool := c.isAlphanum || c = '_' || c = '-'

def tokenShaped (text : List Char) : Bool := 24 ≤ text.length && text.all isTokenChar

def redactText (s : String) : String := if tokenShaped s.toList then mask else s

def isStr : Json φ → Bool
  | .str _ => true
  | _ => false

mutual

def redact : Json φ → Json φ
  | .obj members => .obj (redactMembers members)
  | .arr items => .arr (redactItems items)
  | .str s => .str (redactText s)
  | .null => .null
  | .bool b => .bool b
  | .int n => .int n
  | .float x => .float x

def redactItems : List (Json φ) → List (Json φ)
  | [] => []
  | v :: rest => redact v :: redactItems rest

def redactMembers : List (String × Json φ) → List (String × Json φ)
  | [] => []
  | (k, v) :: rest =>
    (k, if secretKey k then .str mask else if k ∈ identifierKeys ∧ isStr v then v else redact v) :: redactMembers rest

end

/-! ## What redaction leaves -/

mutual

def plain : Json φ → Bool
  | .obj members => plainMembers members
  | .arr items => plainItems items
  | .str s => !tokenShaped s.toList
  | .null | .bool _ | .int _ | .float _ => true

def plainItems : List (Json φ) → Bool
  | [] => true
  | v :: rest => plain v && plainItems rest

def plainMembers : List (String × Json φ) → Bool
  | [] => true
  | (k, v) :: rest => !secretKey k && plain v && plainMembers rest

end

/-! ## Two values -/

def outsideTokens (text : List Char) : List (Option (List Char)) :=
  (text.splitBy (fun a b => isTokenChar a = isTokenChar b)).map (fun run => if tokenShaped run then none else some run)

mutual

/-- Equal but for what stands under a secret's name, and for texts that `text` relates and that are no identifier. -/
def AlikeBy (text : String → String → Prop) : Json φ → Json φ → Prop
  | .null, .null => True
  | .bool a, .bool b => a = b
  | .int a, .int b => a = b
  | .float x, .float y => x = y
  | .str s, .str t => text s t
  | .arr as, .arr bs => AlikeItemsBy text as bs
  | .obj as, .obj bs => AlikeMembersBy text as bs
  | _, _ => False

def AlikeItemsBy (text : String → String → Prop) : List (Json φ) → List (Json φ) → Prop
  | [], [] => True
  | a :: as, b :: bs => AlikeBy text a b ∧ AlikeItemsBy text as bs
  | _, _ => False

def AlikeMembersBy (text : String → String → Prop) : List (String × Json φ) → List (String × Json φ) → Prop
  | [], [] => True
  | (k, a) :: as, (l, b) :: bs =>
    k = l ∧ (secretKey k = true ∨ if k ∈ identifierKeys ∧ isStr a then a = b else AlikeBy text a b) ∧
      AlikeMembersBy text as bs
  | _, _ => False

end

def Alike : Json φ → Json φ → Prop := AlikeBy (fun s t => outsideTokens s.toList = outsideTokens t.toList)

def AlikeButTokens : Json φ → Json φ → Prop :=
  AlikeBy (fun s t => s = t ∨ tokenShaped s.toList ∧ tokenShaped t.toList)

def KeepsRest : Json φ → Json φ → Prop := AlikeBy (fun s t => t = s ∨ tokenShaped s.toList ∧ t = mask)

end QRadarDashboard.Security

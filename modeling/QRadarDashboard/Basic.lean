import Mathlib.Data.Int.Basic

/-!
# Shared vocabulary
-/

namespace QRadarDashboard

inductive Exc where
  | plannerInput (msg : String)
  | progressCodec (msg : String)
  | lifecycle (msg : String)
  | illegalTransition (msg : String)
  | value (msg : String)
  | sourceFloor (msg : String)
  | overflow (msg : String)
  | pwReference (msg : String)
  | pwFact (msg : String)
  | pwFold (msg : String)
  | ipsFold (msg : String)
  | index
  | key
  | zeroDivision
  | assertion (msg : String)
  | integrity (constraint : String)
deriving DecidableEq

/-- `reason or default` -/
def orReason (reason : Option String) (default : String) : String :=
  match reason with
  | none => default
  | some r => if r = "" then default else r

inductive Severity where
  | critical | high | medium | low | info
deriving DecidableEq

def Severity.value : Severity → String
  | .critical => "CRITICAL"
  | .high => "HIGH"
  | .medium => "MEDIUM"
  | .low => "LOW"
  | .info => "INFO"

/-! ## Times

A timezone-aware `datetime` is compared and added by its instant alone, so it is modelled as the `Int` of
microseconds since the epoch, and a `timedelta` as an `Int` of microseconds. -/

/-- `timedelta(seconds=n)` -/
def seconds (n : Int) : Int := n * 1000000

end QRadarDashboard

import AgentWorth.Core.Types

/-!
# Multi-currency conversion

`src/core/fx.ts`.  A rate is quoted in major units; the conversion rescales by
the difference of the two currencies' minor-unit decimals.
-/

namespace AgentWorth

open AgentWorth.Js

/-- Units of the second currency per unit of the first; `none` if unknown. -/
abbrev FxRateSource := String → String → Option JsNumber

/-- `MINOR_UNIT_EXPONENT`: the ISO-4217 exponents that are not two. -/
def minorUnitExponentTable : List (String × Int) :=
  [("JPY", 0), ("KRW", 0), ("CLP", 0), ("ISK", 0), ("VND", 0), ("XOF", 0), ("XAF", 0),
    ("XPF", 0), ("BHD", 3), ("KWD", 3), ("OMR", 3), ("TND", 3), ("JOD", 3), ("IQD", 3),
    ("LYD", 3)]

/-- Upper case of currency codes and token symbols. -/
def upperCase (s : String) : String := String.ofList (s.toList.map Char.toUpper)

/-- Minor-unit decimal exponent of a currency; the operator's token decimals
come first. -/
def minorUnitExponent (currency : String) (tokenDecimals : Option (JsMap Int)) : Int :=
  let c := upperCase currency
  match tokenDecimals.bind (·.get c) with
  | some e => e
  | none => (minorUnitExponentTable.lookup c).getD 2

def convertMinorCrossDecimal (amountMinor rate : JsNumber) (source target : String)
    (tokenDecimals : Option (JsMap Int)) : JsNumber :=
  let scale := JsNumber.pow10
    (minorUnitExponent target tokenDecimals - minorUnitExponent source tokenDecimals)
  (amountMinor * rate * scale).round

end AgentWorth

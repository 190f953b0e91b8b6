import AgentWorth.Core.Types

/-!
# The hard deny-list

`src/core/denyList.ts` and the part of `src/core/payeeNormalize.ts` it reads:
the rules an operator runs with by default.
-/

namespace AgentWorth

open AgentWorth.Js

/-- Code points with no legitimate place in a payee id. -/
def isInvisibleCodePoint (cp : Nat) : Bool :=
  decide (cp ≤ 0x1F) || (decide (0x7F ≤ cp) && decide (cp ≤ 0x9F)) || cp == 0xAD ||
    (decide (0x200B ≤ cp) && decide (cp ≤ 0x200F)) ||
    (decide (0x202A ≤ cp) && decide (cp ≤ 0x202E)) ||
    (decide (0x2060 ≤ cp) && decide (cp ≤ 0x206F)) || cp == 0xFEFF

def hasInvisibleChars (payee : String) : Bool :=
  payee.toList.any fun ch => isInvisibleCodePoint ch.toNat

/-- `IRREVERSIBLE_UNKNOWN_FLOOR_MINOR`. -/
def irreversibleUnknownFloorMinor : JsNumber := 5000

def irreversibleUnknownPayeeRule (floorMinor : JsNumber) : DenyRule where
  id := "irreversible_to_unknown_payee"
  reason := "irreversible payment to a payee with no prior history, above the hard floor"
  match' intent ctx :=
    ctx.reversibility == .irreversible && !ctx.knownPayees intent.payee &&
      decide (floorMinor ≤ intent.amount)

def spoofedPayeeRule : DenyRule where
  id := "spoofed_payee_identifier"
  reason := "payee identifier contains invisible or control characters (zero-width / BiDi) " ++
    "with no legitimate use"
  match' intent _ := hasInvisibleChars intent.payee

/-- `DEFAULT_DENY_RULES`. -/
def defaultDenyRules : List DenyRule :=
  [irreversibleUnknownPayeeRule irreversibleUnknownFloorMinor, spoofedPayeeRule]

end AgentWorth

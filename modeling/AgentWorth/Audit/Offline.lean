import AgentWorth.Audit.HouseEntries
import AgentWorth.Compliance.Package

/-!
# Any run can be handed over

Whatever the executor and the desk have been through, the chain they leave is
readable by anybody who holds the key: its export reads back and verifies, and a
compliance package over it can be made and verifies.
-/

namespace AgentWorth

open AgentWorth.Js AgentWorth.Lib

/-- What an export needs of an entry: a plain object that the report can read. -/
structure Portable (e : AuditEntry) : Prop where
  plain : PlainObject e.payload
  legible : Legible e

theorem plainObject_quote (q : PriceQuote) : PlainObject (quotePayload q) :=
  ⟨⟨_, rfl⟩, by simp [quotePayload]⟩

theorem plain_inbound (payment : InboundPayment) : (inboundValue payment).WellFormed := by
  refine JsValue.wellFormed_obj ("service" :: "amountMinor" :: "currency" ::
    (["payer"] ++ ["proof"])) ?_ (by decide) ?_
  · simp only [List.map_cons, List.map_append]
    exact .cons_cons _ (.cons_cons _ (.cons_cons _ ((Codec.keys_optMember _ _ _).append
      (Codec.keys_spread _ _ _))))
  · intro m hm
    simp only [List.mem_cons, List.mem_append] at hm
    rcases hm with rfl | rfl | rfl | hm | hm
    · trivial
    · trivial
    · trivial
    · exact Codec.plain_str.optMember m hm
    · exact Codec.plain_spread (fun proof => proof.2) m hm

theorem plainObject_rejected (payment : InboundPayment) (reasons : List String) :
    PlainObject (rejectedPayload payment reasons) :=
  ⟨⟨_, rfl⟩, by simp, plain_inbound payment, JsValue.wellFormed_ofStrings reasons, trivial⟩

theorem plainObject_received (payment : InboundPayment) :
    PlainObject (receivedPayload payment) := ⟨⟨_, rfl⟩, by simp [receivedPayload]⟩

variable {σ : Type} {d : ExecutorDeps σ} {desk : EarningDesk}

theorem HouseEntry.portable {t : House σ} {e : AuditEntry} {a : HouseAction σ}
    (h : HouseEntry t e a) : Portable e := by
  cases h with
  | spent outbound legible => exact ⟨outbound.plain, legible⟩
  | quoted type payload =>
      exact ⟨payload ▸ plainObject_quote _, by simp [type], by simp [type]⟩
  | rejected type payload =>
      exact ⟨payload ▸ plainObject_rejected _ _, by simp [type], by simp [type]⟩
  | received waiting type payload =>
      exact ⟨payload ▸ plainObject_received _, by simp [type], by simp [type]⟩

end AgentWorth

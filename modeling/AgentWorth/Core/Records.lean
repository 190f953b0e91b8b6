import AgentWorth.Core.Enforcement
import AgentWorth.Core.Store

/-!
# Records as JSON

The records that leave the process as JSON text and are cast back when they
are read.
-/

namespace AgentWorth

open AgentWorth.Js AgentWorth.Js.Json AgentWorth.Lib

/-! ## Numbers -/

/-- A finite number. -/
def IsFinite (x : JsNumber) : Prop := ∃ q, x = .fin q ∧ JsNumber.Terminates q

instance (x : JsNumber) : Decidable (IsFinite x) :=
  match x with
  | .fin q => decidable_of_iff (JsNumber.Terminates q)
      ⟨fun h => ⟨q, rfl, h⟩, fun ⟨_, heq, h⟩ => JsNumber.fin.inj heq ▸ h⟩
  | .nan | .posInf | .negInf => isFalse fun ⟨_, heq, _⟩ => nomatch heq

theorem isFinite_intCast (n : Int) : IsFinite n := ⟨n, rfl, JsNumber.terminates_intCast n⟩

theorem isFinite_natCast (n : Nat) : IsFinite n := by
  have h := isFinite_intCast n
  rwa [show ((n : Int) : JsNumber) = (n : JsNumber) from
    congrArg JsNumber.fin (Int.cast_natCast n)] at h

theorem IsFinite.stable {x : JsNumber} (h : IsFinite x) : (JsValue.num x).Stable := by
  obtain ⟨q, rfl, hq⟩ := h
  exact JsValue.stable_num hq

/-! ## Audit entries -/

def typeCodec : Codec AuditEventType :=
  Codec.literal
    [.mandateGranted, .mandateRevoked, .mandateAmended, .gateDecision, .paymentSettled,
      .paymentVerified, .paymentFailed, .paymentRefunded, .paymentHalted, .earningQuoted,
      .earningReceived, .earningRejected]
    AuditEventType.text (by intro t; cases t <;> decide)

def entryCodec : Codec AuditEntry where
  encode e := .obj
    (("seq", .num e.seq) :: ("ts", .str e.ts) :: ("type", typeCodec.encode e.type) ::
      ("payload", e.payload) :: ("prevHash", .str e.prevHash) :: ("hash", .str e.hash) ::
      ("sig", .str e.sig) :: Codec.str.optMember "keyVersion" e.keyVersion)
  decode v := do
    let seq ← Codec.num.decode (v.get "seq")
    let ts ← Codec.str.decode (v.get "ts")
    let type ← typeCodec.decode (v.get "type")
    let prevHash ← Codec.str.decode (v.get "prevHash")
    let hash ← Codec.str.decode (v.get "hash")
    let sig ← Codec.str.decode (v.get "sig")
    let keyVersion ← Codec.str.optional (v.get "keyVersion")
    return { seq, ts, type, payload := v.get "payload", prevHash, hash, sig, keyVersion }
  decode_encode e := by
    simp
  encode_ne _ := JsValue.noConfusion

theorem canonicalize_memberPersisted (v : JsValue) :
    canonicalize v.memberPersisted = canonicalize v := by
  unfold JsValue.memberPersisted
  split
  · next h =>
      cases v with
      | undefined => rfl
      | function => rfl
      | symbol => rfl
      | _ => cases h
  · exact canonicalize_persisted v

/-- An entry after its JSON text was parsed. -/
def AuditEntry.persisted (e : AuditEntry) : AuditEntry :=
  { e with payload := e.payload.memberPersisted }

theorem wellFormed_entry {e : AuditEntry} (h : e.payload.WellFormed) :
    (entryCodec.encode e).WellFormed := by
  cases hversion : e.keyVersion <;>
    simp [entryCodec, hversion, Codec.optMember, Codec.str, typeCodec, Codec.literal,
      JsValue.WellFormed, JsValue.WellFormedMembers, h]

/-- An entry reads back from its JSON text, up to what JSON does to the payload. -/
theorem decode_persisted_entry {e : AuditEntry} (hseq : IsFinite e.seq) :
    entryCodec.decode (entryCodec.encode e).persisted = some e.persisted := by
  have hnodup : ((("seq", JsValue.num e.seq) :: ("ts", .str e.ts) ::
      ("type", typeCodec.encode e.type) :: ("payload", e.payload) ::
      ("prevHash", .str e.prevHash) :: ("hash", .str e.hash) :: ("sig", .str e.sig) ::
      Codec.str.optMember "keyVersion" e.keyVersion).map Prod.fst).Nodup := by
    cases hversion : e.keyVersion <;> simp [Codec.optMember]
  have hget := JsValue.get_persisted hnodup
  have hnumber : (JsValue.num e.seq).memberPersisted = .num e.seq := hseq.stable.persisted_eq
  have hversion : (e.keyVersion.elim .undefined Codec.str.encode).memberPersisted =
      e.keyVersion.elim .undefined Codec.str.encode := by
    cases e.keyVersion <;> rfl
  have htype : (typeCodec.encode e.type).memberPersisted = typeCodec.encode e.type := rfl
  show entryCodec.decode (JsValue.obj _).persisted = _
  unfold entryCodec
  simp only [hget]
  simp [hnumber, hversion, htype, AuditEntry.persisted]

/-! ## Stable records

What a record without `undefined`, functions or numbers that are not finite
encodes to is read back as it is. -/

/-- Every value is encoded as a string. -/
def Textual {α : Type} (c : Codec α) : Prop := ∀ a, ∃ s, c.encode a = .str s

theorem Textual.stable {α : Type} {c : Codec α} (h : Textual c) (a : α) :
    (c.encode a).Stable := by
  obtain ⟨s, hs⟩ := h a
  rw [hs]
  exact JsValue.stable_str s

theorem Textual.stable_list {α : Type} {c : Codec α} (h : Textual c) (as : List α) :
    ((Codec.list c).encode as).Stable := by
  refine JsValue.stable_arr ?_
  intro v hv
  obtain ⟨a, -, rfl⟩ := List.mem_map.1 hv
  exact h.stable a

theorem textual_str : Textual Codec.str := fun s => ⟨s, rfl⟩

theorem textual_rail : Textual railCodec := fun r => ⟨r.text, rfl⟩

/-- What a stable record reads back as from its text. -/
theorem read_stable {α : Type} (c : Codec α) {x : α} (h : (c.encode x).Stable)
    {spaces : Nat} {text : String} (htext : stringify spaces (c.encode x) = some text) :
    (parse text).bind c.decode = some x := by
  rw [parse_stringify h.wellFormed htext, h.persisted_eq, Option.bind_some, c.decode_encode]

/-! ## Mandates -/

def scopeCodec : Codec PayeeScope where
  encode := scopeValue
  decode v :=
    match Codec.str.decode (v.get "kind") with
    | some "class" => (Codec.str.decode (v.get "value")).map .class
    | some "allowlist" => ((Codec.list Codec.str).decode (v.get "values")).map .allowlist
    | _ => none
  decode_encode s := by
    have hstrings : ∀ values, (Codec.list Codec.str).decode (.ofStrings values) = some values :=
      (Codec.list Codec.str).decode_encode
    cases s <;> simp [scopeValue, hstrings]
  encode_ne s := by cases s <;> exact JsValue.noConfusion

theorem stable_scope (s : PayeeScope) : (scopeCodec.encode s).Stable := by
  cases s with
  | «class» value =>
      refine JsValue.stable_obj (by simp) ?_
      simp [JsValue.stable_str]
  | allowlist values =>
      refine JsValue.stable_obj (by simp) ?_
      simp only [List.forall_mem_cons]
      exact ⟨JsValue.stable_str _, textual_str.stable_list values, by simp⟩

def periodCodec : Codec Period :=
  Codec.literal [.day, .week, .month] Period.text (by intro p; cases p <;> decide)

def mandateStatusCodec : Codec MandateStatus :=
  Codec.literal [.active, .revoked] MandateStatus.text (by intro s; cases s <;> decide)

def mandateCodec : Codec Mandate where
  encode m := .obj
    [("id", .str m.id), ("label", .str m.label), ("scope", scopeCodec.encode m.scope),
      ("currency", .str m.currency),
      ("allowedRails", (Codec.list railCodec).encode m.allowedRails),
      ("perTxCap", .num m.perTxCap), ("perPeriodCap", .num m.perPeriodCap),
      ("period", periodCodec.encode m.period), ("grantedAt", .str m.grantedAt),
      ("expiresAt", .str m.expiresAt), ("status", mandateStatusCodec.encode m.status)]
  decode v := do
    let id ← Codec.str.decode (v.get "id")
    let label ← Codec.str.decode (v.get "label")
    let scope ← scopeCodec.decode (v.get "scope")
    let currency ← Codec.str.decode (v.get "currency")
    let allowedRails ← (Codec.list railCodec).decode (v.get "allowedRails")
    let perTxCap ← Codec.num.decode (v.get "perTxCap")
    let perPeriodCap ← Codec.num.decode (v.get "perPeriodCap")
    let period ← periodCodec.decode (v.get "period")
    let grantedAt ← Codec.str.decode (v.get "grantedAt")
    let expiresAt ← Codec.str.decode (v.get "expiresAt")
    let status ← mandateStatusCodec.decode (v.get "status")
    return { id, label, scope, currency, allowedRails, perTxCap, perPeriodCap, period,
             grantedAt, expiresAt, status }
  decode_encode m := by
    simp
  encode_ne _ := JsValue.noConfusion

theorem textual_period : Textual periodCodec := fun p => ⟨p.text, rfl⟩

theorem textual_mandateStatus : Textual mandateStatusCodec := fun s => ⟨s.text, rfl⟩

/-- The numbers of the record are finite. -/
def Mandate.Finite (m : Mandate) : Prop := IsFinite m.perTxCap ∧ IsFinite m.perPeriodCap

theorem stable_mandate {m : Mandate} (h : m.Finite) : (mandateCodec.encode m).Stable := by
  obtain ⟨htx, hperiod⟩ := h
  refine JsValue.stable_obj (by simp) ?_
  simp [JsValue.stable_str, stable_scope, textual_rail.stable_list, htx.stable, hperiod.stable,
    textual_period.stable, textual_mandateStatus.stable]

/-! ## Intents and receipts -/

def statusCodec : Codec IntentStatus :=
  Codec.literal [.pending, .settled, .blocked, .failed] IntentStatus.text
    (by intro s; cases s <;> decide)

def storedIntentCodec : Codec StoredIntent where
  encode s := .obj
    (("intent", intentCodec.encode s.intent) :: ("status", statusCodec.encode s.status) ::
      ("mandateId", idCodec.encode s.mandateId) ::
      ("reasons", (Codec.list Codec.str).encode s.reasons) ::
      ("settledAt", idCodec.encode s.settledAt) ::
      ("receiptId", idCodec.encode s.receiptId) ::
      Codec.num.optMember "refundedMinor" s.refundedMinor)
  decode v := do
    let intent ← intentCodec.decode (v.get "intent")
    let status ← statusCodec.decode (v.get "status")
    let mandateId ← idCodec.decode (v.get "mandateId")
    let reasons ← (Codec.list Codec.str).decode (v.get "reasons")
    let settledAt ← idCodec.decode (v.get "settledAt")
    let receiptId ← idCodec.decode (v.get "receiptId")
    let refundedMinor ← Codec.num.optional (v.get "refundedMinor")
    return { intent, status, mandateId, reasons, settledAt, receiptId, refundedMinor }
  decode_encode s := by
    simp
  encode_ne _ := JsValue.noConfusion

theorem textual_status : Textual statusCodec := fun s => ⟨s.text, rfl⟩

theorem stable_id (id : Option String) : (idCodec.encode id).Stable := by
  cases id with
  | none => exact JsValue.stable_null
  | some s => exact JsValue.stable_str s

theorem stable_intent {i : PaymentIntent} (hamount : IsFinite i.amount) :
    (intentCodec.encode i).Stable := by
  refine JsValue.stable_obj (by simp) ?_
  simp [JsValue.stable_str, textual_rail.stable, hamount.stable]

def StoredIntent.Finite (s : StoredIntent) : Prop :=
  IsFinite s.intent.amount ∧ ∀ x ∈ s.refundedMinor, IsFinite x

theorem stable_storedIntent {s : StoredIntent} (h : s.Finite) :
    (storedIntentCodec.encode s).Stable := by
  obtain ⟨hamount, hrefunded⟩ := h
  have hkeys : (("intent" :: "status" :: "mandateId" :: "reasons" :: "settledAt" ::
      "receiptId" :: (Codec.num.optMember "refundedMinor" s.refundedMinor).map Prod.fst :
        List String)).Nodup := by
    cases s.refundedMinor <;> simp [Codec.optMember]
  have hoptional : ∀ m ∈ Codec.num.optMember "refundedMinor" s.refundedMinor, m.2.Stable := by
    intro m hm
    cases hminor : s.refundedMinor with
    | none => rw [hminor] at hm; cases hm
    | some x =>
        rw [hminor] at hm
        rw [List.mem_singleton.1 hm]
        exact (hrefunded x hminor).stable
  refine JsValue.stable_obj hkeys ?_
  simp only [List.forall_mem_cons]
  exact ⟨stable_intent hamount, textual_status.stable _, stable_id _, textual_str.stable_list _,
    stable_id _, stable_id _, hoptional⟩

def finalityCodec : Codec SettlementFinality :=
  Codec.literal [.final, .reversible, .pending]
    (fun | .final => "final" | .reversible => "reversible" | .pending => "pending")
    (by intro f; cases f <;> decide)

def receiptCodec : Codec Receipt where
  encode r := .obj
    (("id", .str r.id) :: ("intentId", .str r.intentId) ::
      ("rail", railCodec.encode r.rail) :: ("amount", .num r.amount) ::
      ("currency", .str r.currency) :: ("settledAt", .str r.settledAt) ::
      ("providerRef", .str r.providerRef) :: ("finality", finalityCodec.encode r.finality) ::
      Codec.str.optMember "providerId" r.providerId)
  decode v := do
    let id ← Codec.str.decode (v.get "id")
    let intentId ← Codec.str.decode (v.get "intentId")
    let rail ← railCodec.decode (v.get "rail")
    let amount ← Codec.num.decode (v.get "amount")
    let currency ← Codec.str.decode (v.get "currency")
    let settledAt ← Codec.str.decode (v.get "settledAt")
    let providerRef ← Codec.str.decode (v.get "providerRef")
    let finality ← finalityCodec.decode (v.get "finality")
    let providerId ← Codec.str.optional (v.get "providerId")
    return { id, intentId, rail, amount, currency, settledAt, providerRef, finality,
             providerId }
  decode_encode r := by
    simp
  encode_ne _ := JsValue.noConfusion

theorem textual_finality : Textual finalityCodec := fun _ => ⟨_, rfl⟩

def Receipt.Finite (r : Receipt) : Prop := IsFinite r.amount

theorem stable_receipt {r : Receipt} (hamount : r.Finite) : (receiptCodec.encode r).Stable := by
  have hkeys : (("id" :: "intentId" :: "rail" :: "amount" :: "currency" :: "settledAt" ::
      "providerRef" :: "finality" ::
        (Codec.str.optMember "providerId" r.providerId).map Prod.fst : List String)).Nodup := by
    cases r.providerId <;> simp [Codec.optMember]
  have hoptional : ∀ m ∈ Codec.str.optMember "providerId" r.providerId, m.2.Stable := by
    intro m hm
    cases hprovider : r.providerId with
    | none => rw [hprovider] at hm; cases hm
    | some id =>
        rw [hprovider] at hm
        rw [List.mem_singleton.1 hm]
        exact JsValue.stable_str id
  refine JsValue.stable_obj hkeys ?_
  simp only [List.forall_mem_cons]
  exact ⟨JsValue.stable_str _, JsValue.stable_str _, textual_rail.stable _, IsFinite.stable hamount,
    JsValue.stable_str _, JsValue.stable_str _, JsValue.stable_str _, textual_finality.stable _,
    hoptional⟩

end AgentWorth

import AgentWorth.Executor.AgentSteps
import AgentWorth.Ingress.Server
import AgentWorth.Proxy.X402Proxy

/-!
# Forwarding

`createX402Proxy` of `src/proxy/x402Proxy.ts`.  A request awaits its upstream,
then, if it was challenged, the executor, then the upstream once more with the
proof of payment.  Any number of requests may be under way over one executor.
A challenge whose `accepts` holds anything but requirements is not modelled.
-/

namespace AgentWorth

open AgentWorth.Js AgentWorth.Lib

/-! ## Messages -/

structure ProxyRequest where
  method : String
  url : String
  headers : List (String × String)
  body : Option String
  deriving DecidableEq

structure ProxyResponse where
  status : Nat
  headers : List (String × String)
  body : String
  deriving DecidableEq

/-- `extra` of an offer. -/
def assetDomainOf (v : JsValue) : Option AssetDomain := do
  let name ← Codec.str.optional (v.get "name")
  let version ← Codec.str.optional (v.get "version")
  return { name, version }

/-- An entry of `accepts`, if it is an offer. -/
def requirementOf (v : JsValue) : Option PaymentRequirements := do
  let scheme ← Codec.str.decode (v.get "scheme")
  let network ← Codec.str.decode (v.get "network")
  let asset ← Codec.str.decode (v.get "asset")
  let payTo ← Codec.str.decode (v.get "payTo")
  let maxAmountRequired ← Codec.str.decode (v.get "maxAmountRequired")
  let resource ← Codec.str.optional (v.get "resource")
  let description ← Codec.str.optional (v.get "description")
  let mimeType ← Codec.str.optional (v.get "mimeType")
  let maxTimeoutSeconds ← Codec.num.optional (v.get "maxTimeoutSeconds")
  let extra ← match v.get "extra" with
    | .undefined => some none
    | extra => (assetDomainOf extra).map some
  return { scheme, network, asset, payTo, maxAmountRequired, resource, description, mimeType,
           maxTimeoutSeconds, extra }

/-- What the proxy makes of the body of a 402. -/
inductive Challenge where
  /-- not a challenge it understands -/
  | none
  | accepts (offers : List PaymentRequirements)
  /-- an `accepts` array whose entries are not offers -/
  | illTyped

def parseChallenge (body : String) : Challenge :=
  match Json.parse body with
  | none => .none
  | some parsed =>
      match parsed.get "accepts" with
      | .arr items =>
          match items.mapM requirementOf with
          | some offers => .accepts offers
          | none => .illTyped
      | _ => .none

/-! ## The proxy -/

/-- The context of the proxy, less the id and the time it mints, and its proof
builder. -/
structure ProxyConfig where
  rail : Option RailKind
  currencyOf : Option (PaymentRequirements → String)
  payeeClassOf : Option (PaymentRequirements → String)
  networks : Option (List String)
  /-- may throw -/
  buildProof : Option (ExecuteResult → Except String String)

def ProxyConfig.context (config : ProxyConfig) (id createdAt : String) : ChallengeContext where
  id := id
  createdAt := createdAt
  rail := config.rail
  currencyOf := config.currencyOf
  payeeClassOf := config.payeeClassOf
  networks := config.networks

/-- `defaultProof`. -/
def defaultProof (result : ExecuteResult) : String :=
  (result.receipt.map Receipt.providerRef).getD ""

def ProxyConfig.proof (config : ProxyConfig) (result : ExecuteResult) : Except String String :=
  match config.buildProof with
  | some buildProof => buildProof result
  | none => .ok (defaultProof result)

inductive ChallengeOutcome where
  | settle
  | routeToOperator
  | block
  | noRequirement
  deriving DecidableEq

def ChallengeOutcome.text : ChallengeOutcome → String
  | .settle => "settle"
  | .routeToOperator => "route_to_operator"
  | .block => "block"
  | .noRequirement => "no_requirement"

/-- The outcome of a challenge whose intent was executed. -/
def challengeOutcome (result : ExecuteResult) : ChallengeOutcome :=
  match result.status with
  | .settled => .settle
  | .pending => .routeToOperator
  | _ => .block

def governedBody (outcome : ChallengeOutcome) (intentId : Option String) (reasons : List String) :
    String :=
  (Json.stringify 0 (.obj
    [("governed", .bool true), ("outcome", .str outcome.text), ("intentId", .orNull intentId),
      ("reasons", .ofStrings reasons)])).getD "undefined"

/-- The answer of the proxy in place of the upstream's. -/
def governedResponse (outcome : ChallengeOutcome) (intentId : Option String)
    (reasons : List String) : ProxyResponse :=
  let body := governedBody outcome intentId reasons
  match outcome with
  | .routeToOperator =>
      { status := 402
        headers := [("content-type", "application/json"), ("x-agentworth", "pending-operator")]
        body }
  | _ =>
      { status := 403
        headers := [("content-type", "application/json"), ("x-agentworth", "blocked")]
        body }

/-- Where a request stands. -/
inductive ExchangePhase where
  /-- at its upstream -/
  | fetching
  /-- in `executor.execute` -/
  | paying
  /-- about to resume from it -/
  | paid (outcome : Except String ExecuteResult)
  /-- at its upstream with a proof -/
  | retrying
  | closed

structure Exchange where
  request : ProxyRequest
  /-- what its challenge was turned into -/
  intent : Option PaymentIntent := none
  phase : ExchangePhase := .fetching

structure X402Forward (σ : Type) where
  executor : State σ
  /-- every request so far, in order of arrival -/
  exchanges : List Exchange := []

/-- Requests are named by their position. -/
inductive ForwardAction where
  | forward (req : ProxyRequest)
  /-- the upstream answers; `newId`, `createdAt` and `now` are what the injected
  sources answer if the response is a challenge -/
  | upstreamAnswers (i : Nat) (res : ProxyResponse) (newId createdAt now : String)
      (src : Sources)
  | upstreamFails (i : Nat) (error : String)
  /-- `executor.execute` has returned or thrown and the request resumes -/
  | respond (i : Nat)
  /-- a rail answers the `k`th call of the executor -/
  | railReturns (k : Nat) (receipt : Receipt) (verified : Except String Bool)
  | railThrows (k : Nat) (error : String)
  /-- the `k`th call of the executor resumes from `settle` -/
  | resume (k : Nat)

inductive ForwardEvent where
  /-- `upstream(req, proof)` is called -/
  | upstreamCalled (i : Nat) (req : ProxyRequest) (proof : Option String)
  /-- what the executor does -/
  | ran (e : Event)
  | answered (i : Nat) (res : ProxyResponse)
  | rejected (i : Nat) (error : String)

/-- Where a request stands once it has called `executor.execute`. -/
def paymentPhase (es : List Event) : ExchangePhase :=
  match es.findSome? Event.outcome with
  | some outcome => .paid outcome
  | none => .paying

/-- The request whose payment has ended knows how. -/
def Exchange.told (ended : Option (String × Except String ExecuteResult)) (x : Exchange) :
    Exchange :=
  match ended, x.phase with
  | some (id, outcome), .paying =>
      if x.intent.any (fun intent => intent.id == id) then { x with phase := .paid outcome } else x
  | _, _ => x

variable {σ : Type} (d : ExecutorDeps σ) (config : ProxyConfig)

namespace X402Forward

/-- The `i`th request is over. -/
def close (t : X402Forward σ) (i : Nat) (x : Exchange) : X402Forward σ :=
  { t with exchanges := t.exchanges.set i { x with phase := .closed } }

/-- A step of the executor that no request makes. -/
def drive (t : X402Forward σ) (a : Action) : Option (X402Forward σ × List ForwardEvent) :=
  (step d t.executor a).map fun (s, es) =>
    ({ executor := s, exchanges := t.exchanges.map (Exchange.told (endedCall t.executor a es)) },
      es.map .ran)

/-- The first answer of the upstream. -/
def challenged (t : X402Forward σ) (i : Nat) (x : Exchange) (res : ProxyResponse)
    (newId createdAt now : String) (src : Sources) :
    Option (X402Forward σ × List ForwardEvent) :=
  if res.status ≠ 402 then some (t.close i x, [.answered i res])
  else
    match parseChallenge res.body with
    | .none => some (t.close i x, [.answered i res])
    | .illTyped => none
    | .accepts offers =>
        match X402Proxy.handleChallenge offers (config.context newId createdAt) with
        | none =>
            some (t.close i x, [.answered i (governedResponse .noRequirement none
              ["no x402 requirement on an acceptable network"])])
        | some (_, intent) =>
            (step d t.executor (.execute now src intent none)).map fun (s, es) =>
              ({ executor := s
                 exchanges := t.exchanges.set i
                  { x with intent := some intent, phase := paymentPhase es } },
                es.map .ran)

/-- The request resumes from `executor.execute`. -/
def respond (t : X402Forward σ) (i : Nat) (x : Exchange) (result : ExecuteResult) :
    X402Forward σ × List ForwardEvent :=
  match challengeOutcome result with
  | .settle =>
      match config.proof result with
      | .error e => (t.close i x, [.rejected i e])
      | .ok proof =>
          ({ t with exchanges := t.exchanges.set i { x with phase := .retrying } },
            [.upstreamCalled i x.request (some proof)])
  | outcome =>
      (t.close i x, [.answered i (governedResponse outcome (x.intent.map PaymentIntent.id)
        result.decision.reasons)])

end X402Forward

def forwardStep (t : X402Forward σ) :
    ForwardAction → Option (X402Forward σ × List ForwardEvent)
  | .forward req =>
      some ({ t with exchanges := t.exchanges ++ [{ request := req }] },
        [.upstreamCalled t.exchanges.length req none])
  | .upstreamAnswers i res newId createdAt now src =>
      t.exchanges[i]?.bind fun x =>
        match x.phase with
        | .fetching => t.challenged d config i x res newId createdAt now src
        | .retrying => some (t.close i x, [.answered i res])
        | _ => none
  | .upstreamFails i error =>
      t.exchanges[i]?.bind fun x =>
        match x.phase with
        | .fetching | .retrying => some (t.close i x, [.rejected i error])
        | _ => none
  | .respond i =>
      t.exchanges[i]?.bind fun x =>
        match x.phase with
        | .paid (.ok result) => some (t.respond config i x result)
        | .paid (.error e) => some (t.close i x, [.rejected i e])
        | _ => none
  | .railReturns k receipt verified => t.drive d (.railReturns k receipt verified)
  | .railThrows k error => t.drive d (.railThrows k error)
  | .resume k => t.drive d (.resume k)

/-- The proxy over one executor. -/
def x402Forward : System (X402Forward σ) ForwardAction ForwardEvent := ⟨forwardStep d config⟩

end AgentWorth

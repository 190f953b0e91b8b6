import AgentWorth.Core.Types
import AgentWorth.Lib.Strings

/-!
# Signed requests and their signature base

The parts of `src/identity/verifier.ts` that read `Signature-Input` and rebuild
the text a signature is over.  What a request is bound by is whatever components
the presented `Signature-Input` names, in the order it names them.
-/

namespace AgentWorth

open AgentWorth.Js

/-- A signed request; `headers` is observed through indexing. -/
structure SignedRequest where
  method : String
  authority : String
  path : String
  headers : String → Option String
  signatureInput : String
  signature : String

structure ParsedSignatureParams where
  /-- ordered covered-component identifiers, such as `"@method"` with its quotes -/
  components : List (List Char)
  created : Option JsNumber
  expires : Option JsNumber
  keyid : Option String
  alg : Option String
  /-- the inner list and its parameters, verbatim -/
  raw : List Char
  deriving DecidableEq

/-! ## Parsing -/

/-- The depth of parentheses after a character outside quotes. -/
def depthAfter (depth : Int) (ch : Char) : Int :=
  if ch = '(' then depth + 1 else if ch = ')' then depth - 1 else depth

/-- `splitTopLevel` from inside an entry: `cur` is what it holds so far. -/
def splitTopLevelFrom (sep : Char) : Int → Bool → List Char → List Char → List (List Char)
  | _, _, cur, [] => [cur]
  | depth, inQuotes, cur, ch :: rest =>
      let quoted := if ch = '"' then !inQuotes else inQuotes
      let depth' := if ch ≠ '"' ∧ inQuotes = false then depthAfter depth ch else depth
      if quoted = false ∧ depth' = 0 ∧ ch = sep then
        cur :: splitTopLevelFrom sep depth' quoted [] rest
      else splitTopLevelFrom sep depth' quoted (cur ++ [ch]) rest

/-- Split on a separator outside quotes and parentheses. -/
def splitTopLevel (input : List Char) (sep : Char) : List (List Char) :=
  splitTopLevelFrom sep 0 false [] input

/-- A quoted value without its quotes. -/
def unquote (v : List Char) : List Char :=
  if v.head? = some '"' ∧ v.getLast? = some '"' then (v.drop 1).dropLast else v

/-- One `;`-separated parameter onto those read so far. -/
def readParam (params : ParsedSignatureParams) (p : List Char) : ParsedSignatureParams :=
  match cut '=' (trimChars p) with
  | none => params
  | some (before, after) =>
      let k := String.ofList (trimChars before)
      let v := unquote (trimChars after)
      if k = "created" then { params with created := some (stringToNumber v) }
      else if k = "expires" then { params with expires := some (stringToNumber v) }
      else if k = "keyid" then { params with keyid := some (String.ofList v) }
      else if k = "alg" then { params with alg := some (String.ofList v) }
      else params

/-- The parameters of an entry's value, `(` components `)` params. -/
def readEntry (rest : List Char) : Option ParsedSignatureParams :=
  match cut ')' rest with
  | some ('(' :: before, paramStr) =>
      let inner := trimChars before
      let components :=
        if inner = [] then [] else (splitTopLevel inner ' ').filter fun c => c ≠ []
      some ((splitTopLevel paramStr ';').foldl readParam
        { components := components, created := none, expires := none, keyid := none, alg := none
          raw := rest })
  | _ => none

/-- An empty label is no label. -/
def labelMatches (label : Option String) (name : String) : Bool :=
  match label with
  | none => true
  | some l => l == "" || name == l

/-- The first entry of the dictionary, among those given, that can be read. -/
def firstEntryOf (label : Option String) :
    List (List Char) → Option (String × ParsedSignatureParams)
  | [] => none
  | entry :: entries =>
      match cut '=' entry with
      | none => firstEntryOf label entries
      | some (before, after) =>
          let name := String.ofList (trimChars before)
          if labelMatches label name then
            match readEntry (trimChars after) with
            | some params => some (name, params)
            | none => firstEntryOf label entries
          else firstEntryOf label entries

def parseSignatureInput (value : String) (label : Option String) :
    Option (String × ParsedSignatureParams) :=
  firstEntryOf label (splitTopLevel value.toList ',')

/-- The encoded bytes of a `Signature` entry, without its colons. -/
def uncolon (v : List Char) : List Char :=
  if v.head? = some ':' ∧ v.getLast? = some ':' then (v.drop 1).dropLast else v

/-- The `Signature` value of a label, still in base64. -/
def signatureText (value : String) (label : String) : Option String :=
  (splitTopLevel value.toList ',').findSome? fun entry =>
    (cut '=' entry).bind fun r =>
      if String.ofList (trimChars r.1) = label then
        some (String.ofList (uncolon (trimChars r.2)))
      else none

/-- `parseSignatureBytes`, given the host's base64 decoder. -/
def parseSignatureBytes {β : Type} (fromBase64 : String → β) (value label : String) : Option β :=
  (signatureText value label).map fromBase64

/-! ## The base -/

/-- A component identifier without its quotes. -/
def componentName (id : List Char) : String :=
  let tail := if id.head? = some '"' then id.drop 1 else id
  String.ofList (if tail.getLast? = some '"' then tail.dropLast else tail)

def componentValue (id : List Char) (req : SignedRequest) : Option String :=
  let name := componentName id
  if name = "@method" then some (toUpperCase req.method)
  else if name = "@authority" then some (toLowerCase req.authority)
  else if name = "@path" then some req.path
  else if name.toList.head? = some '@' then none
  else req.headers (toLowerCase name)

/-- The covered components with their values, if each has one. -/
def coveredValues (req : SignedRequest) : List (List Char) → Option (List (List Char × List Char))
  | [] => some []
  | id :: ids =>
      (componentValue id req).bind fun v =>
        (coveredValues req ids).map fun lines => (id, v.toList) :: lines

/-- Lines `id: value`, then the last line. -/
def labelledLines : List (List Char × List Char) → List Char → List Char
  | [], last => last
  | (id, v) :: lines, last => id ++ (": ".toList ++ (v ++ '\n' :: labelledLines lines last))

def signatureParamsLine (params : ParsedSignatureParams) : List Char :=
  "\"@signature-params\": ".toList ++ params.raw

def buildSignatureBase (req : SignedRequest) (params : ParsedSignatureParams) : Option String :=
  (coveredValues req params.components).map fun lines =>
    String.ofList (labelledLines lines (signatureParamsLine params))

end AgentWorth

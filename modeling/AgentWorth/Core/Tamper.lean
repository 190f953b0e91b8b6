import AgentWorth.Core.Audit
import AgentWorth.Lib.Lines

/-!
# Tamper evidence

A log under one key accepts nothing but prefixes of the chain that the key
signed.  The hash commits to five lines of text; the digests are those of the
runtime, and what is assumed of them is stated about the entries at hand.
-/

namespace AgentWorth

open AgentWorth.Js AgentWorth.Js.Json AgentWorth.Lib

/-! ## What is hashed -/

/-- What an entry commits to, and its signature.  Of the payload only the
canonical form counts. -/
structure SignedPart where
  seq : JsNumber
  ts : String
  type : AuditEventType
  payload : String
  prevHash : String
  hash : String
  sig : String
  deriving DecidableEq

def AuditEntry.signedPart (e : AuditEntry) : SignedPart where
  seq := e.seq
  ts := e.ts
  type := e.type
  payload := canonicalize e.payload
  prevHash := e.prevHash
  hash := e.hash
  sig := e.sig

theorem linked_signedPart {entries : List AuditEntry} {prevHash : String} :
    Linked SignedPart.prevHash SignedPart.hash prevHash (entries.map AuditEntry.signedPart) ↔
      LinkedFrom prevHash entries :=
  linked_map (fun _ => rfl) (fun _ => rfl)

/-- Links are between signed parts. -/
theorem linkedFrom_congr {entries entries' : List AuditEntry} {prevHash : String}
    (h : entries.map AuditEntry.signedPart = entries'.map AuditEntry.signedPart) :
    LinkedFrom prevHash entries ↔ LinkedFrom prevHash entries' := by
  rw [← linked_signedPart, h, linked_signedPart]

/-- An entry is sealed by its signed part. -/
theorem Sealed.congr {crypto : Crypto} {key : String} {e e' : AuditEntry}
    (h : Sealed crypto key e) (hpart : e.signedPart = e'.signedPart) :
    Sealed crypto key e' := by
  simp only [AuditEntry.signedPart, SignedPart.mk.injEq] at hpart
  obtain ⟨hseq, hts, htype, hpayload, hprev, hhash, hsig⟩ := hpart
  constructor
  · rw [← hhash, ← h.hash]
    simp only [hashEntry, hseq, hts, htype, hpayload, hprev]
  · rw [← hhash, ← hsig]
    exact h.sig

/-- The text that `hashEntry` digests. -/
def AuditEntry.hashInput (e : AuditEntry) : String :=
  toString e.seq ++ "\n" ++ e.ts ++ "\n" ++ e.type.text ++ "\n" ++
    canonicalize e.payload ++ "\n" ++ e.prevHash

theorem Sealed.hash_eq {crypto : Crypto} {key : String} {e : AuditEntry}
    (h : Sealed crypto key e) : crypto.sha256 e.hashInput = e.hash := h.hash

theorem oneLine_quote (s : String) : OneLine (quote s).toList := by
  rw [quote, String.toList_ofList]
  exact oneLine_quoted s

private theorem oneLine_joined {opening closing : String} (hopening : OneLine opening.toList)
    (hclosing : OneLine closing.toList) {parts : List String}
    (h : ∀ p ∈ parts, OneLine p.toList) :
    OneLine (opening ++ ",".intercalate parts ++ closing).toList := by
  rw [String.toList_append, String.toList_append, String.toList_intercalate]
  refine oneLine_append.2 ⟨oneLine_append.2 ⟨hopening, oneLine_intercalate (by decide) ?_⟩,
    hclosing⟩
  intro p hp
  obtain ⟨q, hq, rfl⟩ := List.mem_map.1 hp
  exact h q hq

mutual

/-- The canonical form is one line. -/
theorem oneLine_canonicalize : ∀ v : JsValue, OneLine (canonicalize v).toList
  | .arr items => oneLine_joined (by decide) (by decide) (oneLine_canonicalizeItems items)
  | .obj members => by
      refine oneLine_joined (by decide) (by decide) ?_
      intro p hp
      obtain ⟨m, hm, rfl⟩ := List.mem_map.1 hp
      have hvalue := oneLine_canonicalizeMembers members m ((mem_sortByKey _).1 hm)
      rw [String.toList_append, String.toList_append]
      exact oneLine_append.2 ⟨oneLine_append.2 ⟨oneLine_quote m.1, by decide⟩, hvalue⟩
  | .num (.fin q) => oneLine_number _
  | .str s => oneLine_quote s
  | .bool true | .bool false => by decide
  | .num .nan | .num .posInf | .num .negInf => by decide
  | .undefined | .null | .function | .symbol => by decide

theorem oneLine_canonicalizeItems : ∀ vs : List JsValue,
    ∀ p ∈ canonicalizeItems vs, OneLine p.toList
  | [] => by simp [canonicalizeItems]
  | v :: vs => by
      intro p hp
      rcases List.mem_cons.1 hp with rfl | hp
      · exact oneLine_canonicalize v
      · exact oneLine_canonicalizeItems vs p hp

theorem oneLine_canonicalizeMembers : ∀ ms : List (String × JsValue),
    ∀ p ∈ canonicalizeMembers ms, OneLine p.2.toList
  | [] => by simp [canonicalizeMembers]
  | (k, v) :: ms => by
      intro p hp
      unfold canonicalizeMembers at hp
      split at hp
      · exact oneLine_canonicalizeMembers ms p hp
      · rcases List.mem_cons.1 hp with rfl | hp
        · exact oneLine_canonicalize v
        · exact oneLine_canonicalizeMembers ms p hp

end

theorem oneLine_type (type : AuditEventType) : OneLine type.text.toList := by
  cases type <;> decide

theorem type_text_injective : Function.Injective AuditEventType.text := by
  intro a b h
  cases a <;> cases b <;> first | rfl | exact absurd h (by decide)

/-- **The hashed text determines what is hashed**: its last three lines are the
previous hash, the canonical payload and the type, its first line the sequence
number, and the timestamp is what remains, however many lines it has. -/
theorem hashInput_injective {e e' : AuditEntry} (hseq : IsPlain e.seq)
    (hseq' : IsPlain e'.seq) (hprev : OneLine e.prevHash.toList)
    (hprev' : OneLine e'.prevHash.toList) (h : e.hashInput = e'.hashInput) :
    e.seq = e'.seq ∧ e.ts = e'.ts ∧ e.type = e'.type ∧
      canonicalize e.payload = canonicalize e'.payload ∧ e.prevHash = e'.prevHash := by
  have hlist := congrArg String.toList h
  simp only [AuditEntry.hashInput, String.toList_append,
    show "\n".toList = ['\n'] from rfl, List.append_assoc, List.singleton_append] at hlist
  obtain ⟨hfirst, hrest⟩ := firstLine_inj (oneLine_number e.seq) (oneLine_number e'.seq) hlist
  have hlast : (e.ts.toList ++ '\n' :: (e.type.text.toList ++ '\n' ::
        (canonicalize e.payload).toList)) ++ '\n' :: e.prevHash.toList =
      (e'.ts.toList ++ '\n' :: (e'.type.text.toList ++ '\n' ::
        (canonicalize e'.payload).toList)) ++ '\n' :: e'.prevHash.toList := by
    simpa using hrest
  obtain ⟨hlast, hlink⟩ := lastLine_inj hprev hprev' hlast
  have hmiddle : (e.ts.toList ++ '\n' :: e.type.text.toList) ++ '\n' ::
        (canonicalize e.payload).toList =
      (e'.ts.toList ++ '\n' :: e'.type.text.toList) ++ '\n' ::
        (canonicalize e'.payload).toList := by
    simpa using hlast
  obtain ⟨hmiddle, hpayload⟩ := lastLine_inj (oneLine_canonicalize _) (oneLine_canonicalize _)
    hmiddle
  obtain ⟨hts, htype⟩ := lastLine_inj (oneLine_type _) (oneLine_type _) hmiddle
  exact ⟨toString_injective hseq hseq' (String.toList_injective hfirst),
    String.toList_injective hts, type_text_injective (String.toList_injective htype),
    String.toList_injective hpayload, String.toList_injective hlink⟩

/-! ## Genuine chains -/

/-- The chains that `append` builds from an empty log. -/
inductive Genuine (crypto : Crypto) (signer : Signer) : List AuditEntry → Prop
  | empty : Genuine crypto signer []
  | append {entries : List AuditEntry} {type : AuditEventType} {payload : JsValue}
      {ts : String} {entry : AuditEntry} {log : AuditLog}
      (prior : Genuine crypto signer entries)
      (appended : AuditLog.append crypto ⟨signer, entries⟩ type payload ts =
        .ok (entry, log)) : Genuine crypto signer log.entries

section Genuine

variable {crypto : Crypto} {key : String} {entries : List AuditEntry}

theorem Genuine.next {signer : Signer} {signing : SigningKey}
    (h : Genuine crypto signer entries) (hsign : signer.sign = .ok signing)
    (type : AuditEventType) (payload : JsValue) (ts : String) :
    Genuine crypto signer (entries ++
      [AuditLog.nextEntry crypto ⟨signer, entries⟩ signing type payload ts]) :=
  h.append (AuditLog.append_eq_ok_iff.2 ⟨signing, hsign, rfl, rfl⟩)

theorem Genuine.linked {signer : Signer} (h : Genuine crypto signer entries) :
    LinkedFrom genesis entries := by
  induction h with
  | empty => trivial
  | append prior appended ih =>
      obtain ⟨key, -, rfl, rfl⟩ := AuditLog.append_eq_ok_iff.1 appended
      exact AuditLog.linkedFrom_nextEntry ih

/-- Entries are numbered by their position. -/
theorem Genuine.seq {signer : Signer} (h : Genuine crypto signer entries) :
    entries.map AuditEntry.seq = (List.range entries.length).map fun n : Nat => (n : JsNumber) := by
  induction h with
  | empty => rfl
  | append prior appended ih =>
      obtain ⟨key, -, rfl, rfl⟩ := AuditLog.append_eq_ok_iff.1 appended
      rw [List.map_append, ih, List.length_append, List.length_singleton, List.range_succ,
        List.map_append]
      rfl

theorem Genuine.numbered {signer : Signer} (h : Genuine crypto signer entries) :
    ∀ e ∈ entries, ∃ n : Nat, e.seq = n := by
  intro e he
  have hmem := List.mem_map_of_mem (f := AuditEntry.seq) he
  rw [h.seq] at hmem
  obtain ⟨n, -, hn⟩ := List.mem_map.1 hmem
  exact ⟨n, hn.symm⟩

theorem Genuine.isPlain {signer : Signer} (h : Genuine crypto signer entries) :
    ∀ e ∈ entries, IsPlain e.seq := by
  intro e he
  obtain ⟨n, hn⟩ := h.numbered e he
  rw [hn]
  exact isPlain_natCast n

theorem Genuine.sealed (h : Genuine crypto (operatorSigner key) entries) :
    ∀ e ∈ entries, Sealed crypto key e := by
  induction h with
  | empty => simp
  | append prior appended ih =>
      obtain ⟨signing, hsigning, rfl, rfl⟩ := AuditLog.append_eq_ok_iff.1 appended
      cases hsigning
      intro e he
      rcases List.mem_append.1 he with hold | hnew
      · exact ih e hold
      · rw [List.mem_singleton.1 hnew]
        exact AuditLog.nextEntry_sealed crypto _ { material := key, version := none } _ _ _

/-- Without a collision the hashes of a genuine chain are distinct. -/
theorem Genuine.nodup_hash (h : Genuine crypto (operatorSigner key) entries)
    (hprev : ∀ e ∈ entries, OneLine e.prevHash.toList)
    (hcollision : ∀ e ∈ entries, ∀ c ∈ entries,
      crypto.sha256 e.hashInput = crypto.sha256 c.hashInput → e.hashInput = c.hashInput) :
    (entries.map AuditEntry.hash).Nodup := by
  have hseqs : (entries.map AuditEntry.seq).Nodup := by
    rw [h.seq]
    exact List.nodup_range.map fun _ _ heq => JsNumber.natCast_inj.1 heq
  rw [List.Nodup, List.pairwise_map] at hseqs ⊢
  refine hseqs.imp_of_mem ?_
  intro e c he hc hne heq
  rw [← (h.sealed e he).hash_eq, ← (h.sealed c hc).hash_eq] at heq
  exact hne (hashInput_injective (h.isPlain e he) (h.isPlain c hc) (hprev e he) (hprev c hc)
    (hcollision e he c hc heq)).1

end Genuine

/-! ## Tampering -/

/-- **What a single-key log accepts is a prefix of the genuine chain**, up to
payloads with the same canonical form and the key version.  The digests are
assumed to be text on one line, not to collide on the texts at hand, and to be
signed by nobody else; no genuine hash is the genesis. -/
theorem accepted_log_is_prefix {crypto : Crypto} {key : String} {C L : List AuditEntry}
    (hgenuine : Genuine crypto (operatorSigner key) C)
    (htyped : ∀ e ∈ L, IsDouble e.seq)
    (hhex : ∀ text, OneLine (crypto.sha256 text).toList)
    (hcollision : ∀ e ∈ L ++ C, ∀ c ∈ C,
      crypto.sha256 e.hashInput = crypto.sha256 c.hashInput → e.hashInput = c.hashInput)
    (hunforged : ∀ e ∈ L, crypto.hmacSha256 key e.hash = e.sig →
      ∃ c ∈ C, c.hash = e.hash ∧ c.sig = e.sig)
    (hgenesis : ∀ c ∈ C, c.hash ≠ genesis)
    (haccepted : (AuditLog.verify crypto ⟨operatorSigner key, L⟩).valid = true) :
    L.map AuditEntry.signedPart <+: C.map AuditEntry.signedPart := by
  obtain ⟨hlinked, hkeys⟩ := AuditLog.verify_valid_iff.1 haccepted
  have hsealed : ∀ e ∈ L, Sealed crypto key e := by
    intro e he
    obtain ⟨key', hkey, hseal⟩ := hkeys e he
    cases hkey
    exact hseal
  have honeLine : ∀ {es : List AuditEntry}, LinkedFrom genesis es →
      (∀ e ∈ es, Sealed crypto key e) → ∀ e ∈ es, OneLine e.prevHash.toList := by
    intro es hes hs e he
    rcases hes.prev_of_mem e he with hroot | ⟨y, hy, hyhash⟩
    · rw [hroot]
      decide
    · rw [hyhash, ← (hs y hy).hash_eq]
      exact hhex _
  have hprevL := honeLine hlinked hsealed
  have hprevC := honeLine hgenuine.linked hgenuine.sealed
  have hmem : ∀ x ∈ L.map AuditEntry.signedPart, x ∈ C.map AuditEntry.signedPart := by
    intro x hx
    obtain ⟨e, he, rfl⟩ := List.mem_map.1 hx
    obtain ⟨c, hc, hhash, hsig⟩ := hunforged e he (hsealed e he).sig
    have hdigest : crypto.sha256 e.hashInput = crypto.sha256 c.hashInput := by
      rw [(hsealed e he).hash_eq, (hgenuine.sealed c hc).hash_eq, hhash]
    obtain ⟨hseq, hts, htype, hpayload, hprev⟩ := hashInput_injective (htyped e he).isPlain
      (hgenuine.isPlain c hc) (hprevL e he) (hprevC c hc)
      (hcollision e (List.mem_append_left _ he) c hc hdigest)
    refine List.mem_map.2 ⟨c, hc, ?_⟩
    simp only [AuditEntry.signedPart, hseq, hts, htype, hpayload, hprev, hhash, hsig]
  have hnodup : (genesis :: (C.map AuditEntry.signedPart).map SignedPart.hash).Nodup := by
    rw [List.map_map, List.nodup_cons]
    constructor
    · intro hroot
      obtain ⟨c, hc, hhash⟩ := List.mem_map.1 hroot
      exact hgenesis c hc hhash
    · exact hgenuine.nodup_hash hprevC
        fun e he => hcollision e (List.mem_append_right _ he)
  exact (linked_signedPart.2 hlinked).prefix_of_subset (linked_signedPart.2 hgenuine.linked)
    hmem hnodup

namespace Sample

/-- A digest that quotes its text, and a keyed copy of it. -/
def quoteCrypto : Crypto where
  sha256 := quote
  hmacSha256 key text := key ++ text
  jcs _ := ""

/-- The first two entries of a small chain. -/
def firstEntry : AuditEntry :=
  AuditLog.nextEntry quoteCrypto ⟨operatorSigner "key", []⟩ ⟨"key", none⟩ .mandateGranted
    (.obj [("id", .str "m")]) "2026-03-05T12:00:00.000Z"

def secondEntry : AuditEntry :=
  AuditLog.nextEntry quoteCrypto ⟨operatorSigner "key", [firstEntry]⟩ ⟨"key", none⟩
    .mandateRevoked (.obj [("id", .str "m")]) "2026-03-05T12:00:01.000Z"

theorem genuine_chain :
    Genuine quoteCrypto (operatorSigner "key") [firstEntry, secondEntry] :=
  (Genuine.empty.next rfl .mandateGranted (.obj [("id", .str "m")])
    "2026-03-05T12:00:00.000Z").next rfl .mandateRevoked (.obj [("id", .str "m")])
    "2026-03-05T12:00:01.000Z"

end Sample

/-- A chain cut after its first entry verifies, and is a prefix. -/
theorem truncated_log_is_prefix :
    [Sample.firstEntry].map AuditEntry.signedPart <+:
      [Sample.firstEntry, Sample.secondEntry].map AuditEntry.signedPart := by
  refine accepted_log_is_prefix Sample.genuine_chain ?_ oneLine_quote ?_ ?_ ?_ ?_
  · intro e he
    rw [List.mem_singleton.1 he]
    exact ⟨0, 0, by decide, by simp⟩
  · intro e _ c _ heq
    exact quote_injective heq
  · intro e he _
    exact ⟨e, List.mem_cons.2 (Or.inl (List.mem_singleton.1 he)), rfl, rfl⟩
  · intro c hc heq
    have hhead := congrArg (fun s : String => s.toList.head?) heq
    rw [← (Sample.genuine_chain.sealed c hc).hash_eq] at hhead
    simp only [Sample.quoteCrypto, quote, String.toList_ofList, quoted, List.head?_cons] at hhead
    exact absurd hhead (by decide)
  · refine AuditLog.verify_valid_iff.2 ⟨⟨rfl, trivial⟩, ?_⟩
    intro e he
    exact ⟨"key", rfl, Sample.genuine_chain.sealed e
      (List.mem_cons.2 (Or.inl (List.mem_singleton.1 he)))⟩

end AgentWorth

import AgentWorth.Core.DenyList
import AgentWorth.Lib.Strings
import AgentWorth.Lib.Unicode

/-!
# Blocked payees

`normalizePayee` of `src/core/payeeNormalize.ts` and the rule of
`src/core/denyList.ts` that matches by it.  A listed payee is caught under every
spelling with invisible characters and look-alikes exactly when Unicode treats
its characters, and the look-alikes that may stand for them, piece by piece.
-/

namespace AgentWorth

open AgentWorth.Js AgentWorth.Js.Unicode

/-! ## The code -/

/-- `CONFUSABLES`: Cyrillic and Greek letters, each with the Latin one it folds
to. -/
def confusables : List (Char × Char) :=
  -- Cyrillic
  [('а', 'a'), ('е', 'e'), ('о', 'o'), ('р', 'p'), ('с', 'c'), ('у', 'y'), ('х', 'x'),
    ('ѕ', 's'), ('і', 'i'), ('ј', 'j'), ('ԁ', 'd'), ('м', 'm'), ('т', 't'), ('к', 'k'),
    ('в', 'b'), ('н', 'h'),
  -- Greek
    ('ο', 'o'), ('ρ', 'p'), ('α', 'a'), ('ε', 'e'), ('ι', 'i'), ('κ', 'k'), ('ν', 'v'),
    ('τ', 't'), ('υ', 'u'), ('χ', 'x'), ('β', 'b')]

/-- A predicate on code points, on characters. -/
def isInvisible (ch : Char) : Bool := isInvisibleCodePoint ch.toNat

/-- The loop of `normalizePayee`: invisibles go, look-alikes fold. -/
def foldText (lowered : List Char) : List Char :=
  lowered.flatMap fun ch =>
    if isInvisible ch then [] else [(confusables.lookup ch).getD ch]

def normalizePayee (u : Database) (payee : String) : String :=
  trim (String.ofList (foldText (u.toLowerCase (u.nfkc payee.toList))))

def blocklistedPayeeRule (u : Database) (blocklist : List String) : DenyRule where
  id := "blocklisted_payee"
  reason := "payee is on the operator's sanctioned / blocked payee list"
  match' intent _ := (blocklist.map (normalizePayee u)).contains (normalizePayee u intent.payee)

/-! ## Spoofed spellings -/

/-- The capitals of the letters of the table. -/
def capitals : List (Char × Char) :=
  [('а', 'А'), ('е', 'Е'), ('о', 'О'), ('р', 'Р'), ('с', 'С'), ('у', 'У'), ('х', 'Х'),
    ('ѕ', 'Ѕ'), ('і', 'І'), ('ј', 'Ј'), ('ԁ', 'Ԁ'), ('м', 'М'), ('т', 'Т'), ('к', 'К'),
    ('в', 'В'), ('н', 'Н'),
    ('ο', 'Ο'), ('ρ', 'Ρ'), ('α', 'Α'), ('ε', 'Ε'), ('ι', 'Ι'), ('κ', 'Κ'), ('ν', 'Ν'),
    ('τ', 'Τ'), ('υ', 'Υ'), ('χ', 'Χ'), ('β', 'Β'),
    ('a', 'A'), ('e', 'E'), ('o', 'O'), ('p', 'P'), ('c', 'C'), ('y', 'Y'), ('x', 'X'),
    ('s', 'S'), ('i', 'I'), ('j', 'J'), ('d', 'D'), ('m', 'M'), ('t', 'T'), ('k', 'K'),
    ('b', 'B'), ('h', 'H'), ('v', 'V'), ('u', 'U')]

/-- A letter in either case. -/
def InCase (small c : Char) : Prop := c = small ∨ (small, c) ∈ capitals

/-- A listed look-alike of a Latin letter, each in either case. -/
def LookAlike (c d : Char) : Prop :=
  ∃ entry ∈ confusables, InCase entry.2 c ∧ InCase entry.1 d

/-- Any letters replaced by look-alikes. -/
def Variant (p r : List Char) : Prop := List.Forall₂ (fun c d => c = d ∨ LookAlike c d) p r

/-- A spelling of a payee: letters replaced by look-alikes, invisible characters
inserted anywhere. -/
def Spoof (payee q : String) : Prop :=
  ∃ r, Variant payee.toList r ∧ Inserted isInvisible r q.toList

/-! ## What Unicode says of these characters -/

/-- The entries of the database the rule relies on. -/
structure PayeeCharacters (u : Database) : Prop where
  invisible : ∀ z, isInvisible z = true →
    u.decomposition z = [z] ∧ u.Inert z ∧ u.lower z = [z] ∧ u.cased z = false
  /-- The zero-width space is a format character, NUL a control. -/
  zeroWidth : u.caseIgnorable '\u200B' = true
  control : u.caseIgnorable '\x00' = false
  latin : ∀ entry ∈ confusables, ∀ c, InCase entry.2 c →
    u.decomposition c = [c] ∧ u.lower c = [entry.2]
  lookAlike : ∀ entry ∈ confusables, ∀ d, InCase entry.1 d →
    u.decomposition d = [d] ∧ u.lower d = [entry.1]
  sigma : u.Solitary 'Σ'

/-! ## The condition -/

/-- What a character normalizes to by itself. -/
def foldAlone (u : Database) (c : Char) : List Char :=
  foldText ((u.nfkc [c]).flatMap u.lowerAlone)

/-- However a variant of the payee is cut into pieces, no capital sigma comes
after a letter, and the pieces normalize to what the payee's characters do one
by one, up to white space at the ends. -/
structure PieceByPiece (u : Database) (payee : String) : Prop where
  sigma : ∀ pieces : List (List Char), Variant payee.toList pieces.flatten →
    u.LateSigma [] (pieces.flatMap u.nfkc) = false
  letters : ∀ pieces : List (List Char), Variant payee.toList pieces.flatten →
    trimChars (foldText ((pieces.flatMap u.nfkc).flatMap u.lowerAlone)) =
      trimChars (payee.toList.flatMap (foldAlone u))

/-! ## Folding -/

theorem foldText_append (s t : List Char) : foldText (s ++ t) = foldText s ++ foldText t :=
  List.flatMap_append

theorem foldText_flatMap (f : Char → List Char) (s : List Char) :
    foldText (s.flatMap f) = s.flatMap fun c => foldText (f c) :=
  List.flatMap_assoc

theorem normalizePayee_ofList (u : Database) (s : List Char) :
    normalizePayee u (String.ofList s) =
      String.ofList (trimChars (foldText (u.toLowerCase (u.nfkc s)))) := by
  rw [normalizePayee, String.toList_ofList, trim, String.toList_ofList]
  rfl

theorem invisible_ne_sigma {z : Char} (h : isInvisible z = true) : z ≠ 'Σ' := by
  rintro rfl
  exact absurd h (by decide)

variable {u : Database}

theorem foldText_lowerAlone_invisible (hu : PayeeCharacters u) {z : Char}
    (hz : isInvisible z = true) : foldText (u.lowerAlone z) = [] := by
  rw [Database.lowerAlone, if_neg (invisible_ne_sigma hz), (hu.invisible z hz).2.2.1]
  simp [foldText, hz]

/-- Inserted invisibles leave no trace where characters lower one by one. -/
theorem foldText_inserted (hu : PayeeCharacters u) {s t : List Char}
    (h : Inserted isInvisible s t) :
    foldText (t.flatMap u.lowerAlone) = foldText (s.flatMap u.lowerAlone) := by
  induction h with
  | nil => rfl
  | keep _ _ ih =>
      rw [List.flatMap_cons, List.flatMap_cons, foldText_append, foldText_append, ih]
  | insert hz _ ih =>
      rw [List.flatMap_cons, foldText_append, foldText_lowerAlone_invisible hu hz, ih,
        List.nil_append]

/-- A spelling whose normal form is that of pieces, apart from invisibles. -/
theorem normalizePayee_inserted (hu : PayeeCharacters u) {s q : List Char}
    (h : Inserted isInvisible s (u.nfkc q)) (hsigma : u.LateSigma [] s = false) :
    normalizePayee u (String.ofList q) =
      String.ofList (trimChars (foldText (s.flatMap u.lowerAlone))) := by
  have hlate : u.LateSigma [] (u.nfkc q) = false := by
    rw [← Bool.not_eq_true]
    intro hlate
    have hpieces := Database.lateSigma_of_inserted
      (fun z hz => ⟨(hu.invisible z hz).2.2.2, invisible_ne_sigma hz⟩) h .nil hlate
    exact absurd hsigma (by rw [hpieces]; decide)
  rw [normalizePayee_ofList, Database.toLowerCase_of_not_lateSigma hlate, foldText_inserted hu h]

/-- **Piece by piece, every spelling normalizes alike.** -/
theorem normalizePayee_spoof (hu : PayeeCharacters u) {payee q : String}
    (h : PieceByPiece u payee) (hq : Spoof payee q) :
    normalizePayee u q =
      String.ofList (trimChars (payee.toList.flatMap (foldAlone u))) := by
  obtain ⟨r, hvariant, hinserted⟩ := hq
  obtain ⟨pieces, hflat, htext⟩ := Database.nfkc_inserted
    (fun z hz => ⟨(hu.invisible z hz).1, (hu.invisible z hz).2.1⟩) hinserted []
  rw [List.nil_append] at hflat htext
  rw [← hflat] at hvariant
  have hnormal := normalizePayee_inserted hu htext (h.sigma pieces hvariant)
  rw [String.ofList_toList] at hnormal
  rw [hnormal, h.letters pieces hvariant]

theorem variant_refl : ∀ p : List Char, Variant p p
  | [] => .nil
  | _ :: cs => .cons (.inl rfl) (variant_refl cs)

theorem spoof_refl (payee : String) : Spoof payee payee :=
  ⟨payee.toList, variant_refl _, .refl _⟩

/-! ## The converse -/

theorem isInvisible_zeroWidth : isInvisible '\u200B' = true := by decide

theorem isInvisible_nul : isInvisible '\x00' = true := by decide

/-- The text of a variant cut into pieces by zero-width spaces, and of what
follows it. -/
theorem nfkc_zeroWidth (hu : PayeeCharacters u) (pieces : List (List Char)) (rest : List Char) :
    u.nfkc (joinAfter '\u200B' pieces ++ rest) =
      joinAfter '\u200B' (pieces.map u.nfkc) ++ u.nfkc rest := by
  obtain ⟨hdecomposition, hinert, -⟩ := hu.invisible _ isInvisible_zeroWidth
  exact Database.nfkc_joinAfter hinert hdecomposition rest pieces

theorem nfkc_nul (hu : PayeeCharacters u) (as bs : List Char) :
    u.nfkc (as ++ '\x00' :: bs) = u.nfkc as ++ '\x00' :: u.nfkc bs := by
  obtain ⟨hdecomposition, hinert, -⟩ := hu.invisible _ isInvisible_nul
  exact Database.nfkc_inert hinert hdecomposition as bs

theorem inserted_pieces {p : Char → Bool} {z : Char} (hz : p z = true) (f : List Char → List Char)
    (pieces : List (List Char)) : Inserted p (pieces.flatMap f) (joinAfter z (pieces.map f)) := by
  have h := inserted_joinAfter hz (pieces.map f)
  rwa [← List.flatMap_def] at h

/-- A character that is no white space stays between what is trimmed. -/
theorem trimChars_append_cons {x : Char} (hx : isSpace x = false) (as bs : List Char) :
    trimChars (as ++ x :: bs) =
      as.dropWhile isSpace ++ x :: (bs.reverse.dropWhile isSpace).reverse := by
  have hdrop : ∀ as bs : List Char,
      (as ++ x :: bs).dropWhile isSpace = as.dropWhile isSpace ++ x :: bs := by
    intro as bs
    induction as with
    | nil => simp [hx]
    | cons a as ih =>
        rw [List.cons_append, List.dropWhile_cons, List.dropWhile_cons]
        split_ifs
        · exact ih
        · rfl
  unfold trimChars
  rw [hdrop, List.reverse_append, List.reverse_cons, List.append_assoc, List.singleton_append,
    hdrop, List.reverse_append, List.reverse_cons, List.reverse_reverse, List.append_assoc,
    List.singleton_append]

/-- No cased letter shows through a NUL. -/
theorem reachesCased_nul (hu : PayeeCharacters u) (cs : List Char) :
    u.reachesCased ('\x00' :: cs) = false := by
  obtain ⟨-, -, -, hcased⟩ := hu.invisible _ isInvisible_nul
  rw [Database.reachesCased, hcased, hu.control]
  rfl

/-- What comes after a NUL is lowered apart, and the NUL goes. -/
theorem foldText_nul (hu : PayeeCharacters u) (before cs : List Char) :
    foldText (u.toLowerCaseFrom before ('\x00' :: cs)) =
      foldText (u.toLowerCaseFrom ['\x00'] cs) := by
  obtain ⟨-, -, hlower, -⟩ := hu.invisible _ isInvisible_nul
  have hapart : u.toLowerCaseFrom ('\x00' :: before) cs = u.toLowerCaseFrom ['\x00'] cs :=
    Database.toLowerCaseFrom_congr
      (by rw [reachesCased_nul hu before, reachesCased_nul hu []]) cs
  rw [Database.toLowerCaseFrom, if_neg (by decide), hlower, foldText_append, hapart]
  have hgone : foldText ['\x00'] = [] := by decide
  rw [hgone, List.nil_append]

/-- A sigma before a NUL is final after a letter, and never after a NUL. -/
theorem foldText_sigma_nul (hu : PayeeCharacters u) {s : List Char}
    (hs : u.LateSigma [] s = false) (hcased : u.reachesCased s.reverse = true)
    (rest : List Char) :
    foldText (u.toLowerCase (s ++ 'Σ' :: '\x00' :: rest)) =
        foldText (s.flatMap u.lowerAlone) ++
          'ς' :: foldText (u.toLowerCaseFrom ['\x00'] rest) ∧
      foldText (u.toLowerCase (s ++ '\x00' :: 'Σ' :: '\x00' :: rest)) =
        foldText (s.flatMap u.lowerAlone) ++
          'σ' :: foldText (u.toLowerCaseFrom ['\x00'] rest) := by
  have hfinal : foldText ['ς'] = ['ς'] := by decide
  have hmedial : foldText ['σ'] = ['σ'] := by decide
  constructor
  · rw [Database.toLowerCase, Database.toLowerCaseFrom_append _ hs, List.append_nil,
      Database.toLowerCaseFrom, if_pos rfl, hcased, reachesCased_nul hu, foldText_append,
      foldText_append, foldText_nul hu]
    show _ ++ (foldText ['ς'] ++ _) = _
    rw [hfinal, List.singleton_append]
  · rw [Database.toLowerCase, Database.toLowerCaseFrom_append _ hs, foldText_append,
      foldText_nul hu, Database.toLowerCaseFrom, if_pos rfl, reachesCased_nul hu [],
      foldText_append, foldText_nul hu]
    show _ ++ (foldText ['σ'] ++ _) = _
    rw [hmedial, List.singleton_append]

/-- Where a capital sigma comes after a letter, two spellings differ. -/
theorem lateSigma_of_alike (hu : PayeeCharacters u) {payee : String}
    (h : ∀ q, Spoof payee q → normalizePayee u q = normalizePayee u payee)
    {pieces : List (List Char)} (hvariant : Variant payee.toList pieces.flatten) :
    u.LateSigma [] (pieces.flatMap u.nfkc) = false := by
  rw [← Bool.not_eq_true]
  intro hlate
  obtain ⟨as, bs, htext, hearlier, hcased⟩ := Database.lateSigma_split hlate
  rw [List.append_nil] at hcased
  obtain ⟨before, c, after, hflat, hc, rfl, rfl⟩ := Database.nfkc_split_pieces hu.sigma htext
  rw [hflat] at hvariant
  -- both spellings are cut at the pieces and after the sigma, one also before it
  have hbefore := inserted_joinAfter (p := isInvisible) isInvisible_zeroWidth before
  have hafter := inserted_joinAfter (p := isInvisible) isInvisible_zeroWidth after
  have hfinal := h (String.ofList
      (joinAfter '\u200B' before ++ c :: '\x00' :: joinAfter '\u200B' after))
    ⟨_, hvariant, by
      rw [String.toList_ofList]
      exact hbefore.append (.keep c (.insert isInvisible_nul hafter))⟩
  have hmedial := h (String.ofList
      (joinAfter '\u200B' before ++ '\x00' :: c :: '\x00' :: joinAfter '\u200B' after))
    ⟨_, hvariant, by
      rw [String.toList_ofList]
      exact hbefore.append (.insert isInvisible_nul (.keep c (.insert isInvisible_nul hafter)))⟩
  have hsigma : ∀ rest, u.nfkc (c :: rest) = 'Σ' :: u.nfkc rest :=
    Database.nfkc_inert hu.sigma.toInert hc []
  have hnul : ∀ rest, u.nfkc ('\x00' :: rest) = '\x00' :: u.nfkc rest := nfkc_nul hu []
  -- the text before the sigma has no late one, and ends in a letter
  have hspaces := inserted_pieces (p := isInvisible) isInvisible_zeroWidth u.nfkc before
  have hnone : u.LateSigma [] (joinAfter '\u200B' (before.map u.nfkc)) = false := by
    rw [← Bool.not_eq_true]
    intro hspaced
    have hlate := Database.lateSigma_of_inserted
      (fun z hz => ⟨(hu.invisible z hz).2.2.2, invisible_ne_sigma hz⟩) hspaces .nil hspaced
    exact absurd hearlier (by rw [hlate]; decide)
  have hends : u.reachesCased (joinAfter '\u200B' (before.map u.nfkc)).reverse = true := by
    have honly := inserted_pieces (p := fun z => z == '\u200B') (beq_self_eq_true _) u.nfkc before
    refine Database.reachesCased_inserted (fun z hz => ?_) honly.reverse hcased
    rw [beq_iff_eq.1 hz]
    exact hu.zeroWidth
  obtain ⟨hfinalText, hmedialText⟩ := foldText_sigma_nul hu hnone hends
    (u.nfkc (joinAfter '\u200B' after))
  rw [normalizePayee_ofList, nfkc_zeroWidth hu, hsigma, hnul, hfinalText,
    trimChars_append_cons (by decide)] at hfinal
  rw [normalizePayee_ofList, nfkc_zeroWidth hu, hnul, hsigma, hnul, hmedialText,
    trimChars_append_cons (by decide), ← hfinal] at hmedial
  have hsame := String.ofList_injective hmedial
  rw [List.append_cancel_left_eq] at hsame
  exact absurd (List.head_eq_of_cons_eq hsame) (by decide)

/-- The spelling of a variant cut by zero-width spaces. -/
theorem normalizePayee_joinAfter (hu : PayeeCharacters u) {pieces : List (List Char)}
    (hsigma : u.LateSigma [] (pieces.flatMap u.nfkc) = false) :
    normalizePayee u (String.ofList (joinAfter '\u200B' pieces)) =
      String.ofList (trimChars (foldText ((pieces.flatMap u.nfkc).flatMap u.lowerAlone))) := by
  have htext := nfkc_zeroWidth hu pieces []
  rw [List.append_nil, Database.nfkc_nil, List.append_nil] at htext
  refine normalizePayee_inserted hu ?_ hsigma
  rw [htext]
  exact inserted_pieces isInvisible_zeroWidth u.nfkc pieces

/-- **If every spelling normalizes alike, the payee normalizes piece by
piece.** -/
theorem pieceByPiece_of_alike (hu : PayeeCharacters u) {payee : String}
    (h : ∀ q, Spoof payee q → normalizePayee u q = normalizePayee u payee) :
    PieceByPiece u payee := by
  have hpieces : ∀ pieces : List (List Char), Variant payee.toList pieces.flatten →
      String.ofList (trimChars (foldText ((pieces.flatMap u.nfkc).flatMap u.lowerAlone))) =
        normalizePayee u payee := by
    intro pieces hvariant
    rw [← normalizePayee_joinAfter hu (lateSigma_of_alike hu h hvariant)]
    refine h _ ⟨_, hvariant, ?_⟩
    rw [String.toList_ofList]
    exact inserted_joinAfter isInvisible_zeroWidth pieces
  refine ⟨fun pieces hvariant => lateSigma_of_alike hu h hvariant, fun pieces hvariant => ?_⟩
  have hflat : (payee.toList.map fun c => [c]).flatten = payee.toList := by
    rw [← List.flatMap_def, List.flatMap_singleton']
  have halone := hpieces (payee.toList.map fun c => [c]) (by
    rw [hflat]
    exact variant_refl _)
  have hfold :
      foldText (((payee.toList.map fun c => [c]).flatMap u.nfkc).flatMap u.lowerAlone) =
        payee.toList.flatMap (foldAlone u) := by
    rw [List.flatMap_map, List.flatMap_assoc, foldText_flatMap]
    rfl
  rw [hfold] at halone
  exact String.ofList_injective ((hpieces pieces hvariant).trans halone.symm)

/-! ## The rule -/

/-- An intent to pay a payee. -/
def paymentTo (payee : String) : PaymentIntent where
  id := "i"
  payee := payee
  payeeClass := "services"
  amount := 1
  currency := "USD"
  rail := .card
  rationale := "an invoice"
  createdAt := "2026-03-01T12:00:00.000Z"

theorem match_blocklisted {blocklist : List String} {intent : PaymentIntent}
    {ctx : DenyContext} : (blocklistedPayeeRule u blocklist).match' intent ctx = true ↔
      ∃ entry ∈ blocklist, normalizePayee u entry = normalizePayee u intent.payee := by
  rw [← List.mem_map, ← List.contains_iff_mem]
  rfl

/-- **A listed payee is caught under every spelling exactly when it normalizes
piece by piece.** -/
theorem blocklist_catches_spoofs_iff (hu : PayeeCharacters u) (payee : String) :
    (∀ blocklist, payee ∈ blocklist → ∀ intent, Spoof payee intent.payee → ∀ ctx,
        (blocklistedPayeeRule u blocklist).match' intent ctx = true) ↔
      PieceByPiece u payee := by
  constructor
  · intro h
    refine pieceByPiece_of_alike hu fun q hq => ?_
    have hmatch := h [payee] List.mem_cons_self (paymentTo q) hq
      { knownPayees := fun _ => false, reversibility := .reversible }
    rw [match_blocklisted] at hmatch
    obtain ⟨entry, hentry, hlike⟩ := hmatch
    rw [List.mem_singleton.1 hentry] at hlike
    exact hlike.symm
  · intro h blocklist hlisted intent hspoof ctx
    have hlike : normalizePayee u intent.payee = normalizePayee u payee := by
      rw [normalizePayee_spoof hu h hspoof, normalizePayee_spoof hu h (spoof_refl payee)]
    rw [match_blocklisted]
    exact ⟨payee, hlisted, hlike.symm⟩

/-! ## Payees without marks -/

theorem lowerAlone_ne {c : Char} (h : c ≠ 'Σ') : u.lowerAlone c = u.lower c := if_neg h

theorem capitals_ne_sigma : ∀ entry ∈ capitals, entry.1 ≠ 'Σ' ∧ entry.2 ≠ 'Σ' := by decide

theorem confusables_ne_sigma : ∀ entry ∈ confusables, entry.1 ≠ 'Σ' ∧ entry.2 ≠ 'Σ' := by decide

theorem InCase.ne_sigma {small c : Char} (h : InCase small c) (hsmall : small ≠ 'Σ') :
    c ≠ 'Σ' := by
  rcases h with rfl | h
  · exact hsmall
  · exact (capitals_ne_sigma _ h).2

theorem foldText_entry : ∀ entry ∈ confusables,
    foldText [entry.1] = [entry.2] ∧ foldText [entry.2] = [entry.2] := by
  decide

/-- A look-alike folds to what the letter does. -/
theorem foldAlone_lookAlike (hu : PayeeCharacters u) {c d : Char} (h : LookAlike c d) :
    foldAlone u d = foldAlone u c := by
  obtain ⟨entry, hentry, hc, hd⟩ := h
  obtain ⟨hne, hne'⟩ := confusables_ne_sigma entry hentry
  obtain ⟨hfold, hfold'⟩ := foldText_entry entry hentry
  obtain ⟨hdc, hlc⟩ := hu.latin entry hentry c hc
  obtain ⟨hdd, hld⟩ := hu.lookAlike entry hentry d hd
  unfold foldAlone
  rw [Database.nfkc_singleton hdc, Database.nfkc_singleton hdd, List.flatMap_singleton,
    List.flatMap_singleton, lowerAlone_ne (hc.ne_sigma hne'), lowerAlone_ne (hd.ne_sigma hne),
    hlc, hld, hfold, hfold']

theorem flatMap_foldAlone (hu : PayeeCharacters u) {p r : List Char} (h : Variant p r) :
    r.flatMap (foldAlone u) = p.flatMap (foldAlone u) := by
  induction h with
  | nil => rfl
  | cons hcd _ ih =>
      rw [List.flatMap_cons, List.flatMap_cons, ih]
      rcases hcd with rfl | hcd
      · rfl
      · rw [foldAlone_lookAlike hu hcd]

theorem mem_variant {p r : List Char} (h : Variant p r) {d : Char} (hd : d ∈ r) :
    d ∈ p ∨ ∃ c, LookAlike c d := by
  induction h with
  | nil => exact .inl hd
  | cons hcd _ ih =>
      rcases List.mem_cons.1 hd with rfl | hd
      · rcases hcd with rfl | hcd
        · exact .inl List.mem_cons_self
        · exact .inr ⟨_, hcd⟩
      · exact (ih hd).imp_left (List.mem_cons_of_mem _)

/-- **Payees of characters that compose with nothing before them**, such as all
of ASCII, are caught under every spelling. -/
theorem pieceByPiece_of_opens (hu : PayeeCharacters u)
    (hletters : ∀ entry ∈ confusables, ∀ d, InCase entry.1 d → u.Opens d) {payee : String}
    (h : ∀ c ∈ payee.toList, ∀ x ∈ u.decomposition c, u.Opens x ∧ x ≠ 'Σ') :
    PieceByPiece u payee := by
  have hopens : ∀ {r}, Variant payee.toList r → ∀ d ∈ r, ∀ x ∈ u.decomposition d,
      u.Opens x ∧ x ≠ 'Σ' := by
    intro r hvariant d hd x hx
    rcases mem_variant hvariant hd with hpayee | ⟨c, entry, hentry, -, hcase⟩
    · exact h d hpayee x hx
    · rw [(hu.lookAlike entry hentry d hcase).1, List.mem_singleton] at hx
      rw [hx]
      exact ⟨hletters entry hentry d hcase,
        hcase.ne_sigma (confusables_ne_sigma entry hentry).1⟩
  have htext : ∀ pieces : List (List Char), Variant payee.toList pieces.flatten →
      pieces.flatMap u.nfkc = pieces.flatten.flatMap u.decomposition := by
    intro pieces hvariant
    have hflat : pieces.flatten.flatMap u.decomposition =
        pieces.flatMap fun s => s.flatMap u.decomposition := by
      rw [List.flatten_eq_flatMap, List.flatMap_assoc]
      rfl
    rw [hflat]
    refine List.flatMap_congr fun s hs => Database.nfkc_opens fun c hc x hx => ?_
    exact (hopens hvariant c (List.mem_flatten.2 ⟨s, hs, hc⟩) x hx).1
  constructor
  · intro pieces hvariant
    rw [htext pieces hvariant]
    refine Database.lateSigma_of_not_mem fun hmem => ?_
    obtain ⟨c, hc, hx⟩ := List.mem_flatMap.1 hmem
    exact (hopens hvariant c hc _ hx).2 rfl
  · intro pieces hvariant
    rw [htext pieces hvariant, List.flatMap_assoc, foldText_flatMap,
      ← flatMap_foldAlone hu hvariant]
    congr 1
    refine List.flatMap_congr fun c hc => ?_
    rw [foldAlone, Database.nfkc_opens (s := [c]) fun d hd x hx => ?_, List.flatMap_singleton]
    rw [List.mem_singleton.1 hd] at hx
    exact (hopens hvariant c hc x hx).1

/-! ## Two payees -/

namespace Sample

/-- No payee is known. -/
def strangerContext : DenyContext where
  knownPayees _ := false
  reversibility := .reversible

/-- The remaining letters of the fragment below. -/
def otherCapitals : List (Char × Char) :=
  [('f', 'F'), ('g', 'G'), ('l', 'L'), ('n', 'N'), ('q', 'Q'), ('r', 'R'), ('w', 'W'),
    ('z', 'Z'), ('σ', 'Σ')]

/-- The part of Unicode about ASCII, the letters of the table, sigma, the
invisible characters and the acute accent after a small `e`. -/
def acuteDatabase : Database where
  decomposition c := if c = '\u00E9' then ['e', '\u0301'] else [c]
  combiningClass c := if c = '\u0301' then 230 else 0
  composite a b := if a = 'e' ∧ b = '\u0301' then some '\u00E9' else none
  lower c := [(((capitals ++ otherCapitals).find? fun entry => entry.2 == c).map Prod.fst).getD c]
  cased c := c == 'ς' || c == '\u00E9' ||
    (capitals ++ otherCapitals).any fun entry => entry.1 == c || entry.2 == c
  caseIgnorable c := c == '\u0301' || (isInvisible c && decide (0xA0 ≤ c.toNat))

theorem capitals_visible : ∀ entry ∈ capitals ++ otherCapitals,
    isInvisible entry.1 = false ∧ isInvisible entry.2 = false := by
  decide

theorem acute_capitals : ∀ entry ∈ capitals,
    acuteDatabase.decomposition entry.2 = [entry.2] ∧ acuteDatabase.lower entry.2 = [entry.1] := by
  decide

theorem acute_confusables : ∀ entry ∈ confusables,
    (acuteDatabase.decomposition entry.1 = [entry.1] ∧
        acuteDatabase.lower entry.1 = [entry.1]) ∧
      acuteDatabase.decomposition entry.2 = [entry.2] ∧
        acuteDatabase.lower entry.2 = [entry.2] := by
  decide

theorem acute_inCase {small c : Char} (h : InCase small c)
    (hsmall : acuteDatabase.decomposition small = [small] ∧ acuteDatabase.lower small = [small]) :
    acuteDatabase.decomposition c = [c] ∧ acuteDatabase.lower c = [small] := by
  rcases h with rfl | h
  · exact hsmall
  · exact acute_capitals _ h

theorem acute_opens {c : Char} (h : c ≠ '\u0301') : acuteDatabase.Opens c :=
  ⟨if_neg h, fun _ => if_neg fun hpair => h hpair.2⟩

theorem acute_first {a : Char} (h : a ≠ 'e') (c : Char) :
    acuteDatabase.composite a c = none :=
  if_neg fun hpair => h hpair.1

theorem payeeCharacters_acute : PayeeCharacters acuteDatabase where
  invisible z hz := by
    have hne : ∀ {x : Char}, isInvisible x = false → z ≠ x := by
      rintro x hx rfl
      exact Bool.false_ne_true (hx.symm.trans hz)
    have hfind : (capitals ++ otherCapitals).find? (fun entry => entry.2 == z) = none := by
      rw [List.find?_eq_none]
      intro entry hentry hcapital
      exact hne (capitals_visible entry hentry).2 (beq_iff_eq.1 hcapital).symm
    have hany : ((capitals ++ otherCapitals).any fun entry => entry.1 == z || entry.2 == z) =
        false := by
      rw [List.any_eq_false]
      intro entry hentry hcased
      rw [Bool.or_eq_true, beq_iff_eq, beq_iff_eq] at hcased
      rcases hcased with hsmall | hcapital
      · exact hne (capitals_visible entry hentry).1 hsmall.symm
      · exact hne (capitals_visible entry hentry).2 hcapital.symm
    have hmark : z ≠ '\u0301' := hne (by decide)
    refine ⟨if_neg (hne (by decide)), ⟨if_neg hmark, acute_first (hne (by decide)),
      (acute_opens hmark).second⟩, ?_, ?_⟩
    · show [((List.find? (fun entry => entry.2 == z) _).map Prod.fst).getD z] = [z]
      rw [hfind]
      rfl
    · show (z == 'ς' || z == '\u00E9' || List.any _ _) = false
      rw [hany, beq_eq_false_iff_ne.2 (hne (by decide)), beq_eq_false_iff_ne.2 (hne (by decide))]
      rfl
  zeroWidth := by decide
  control := by decide
  latin entry hentry c hc := acute_inCase hc (acute_confusables entry hentry).2
  lookAlike entry hentry d hd := acute_inCase hd (acute_confusables entry hentry).1
  sigma :=
    { starter := by decide
      first := acute_first (by decide)
      second := (acute_opens (by decide)).second
      alone := fun c hmem => by
        by_cases hc : c = '\u00E9'
        · rw [hc] at hmem
          exact absurd hmem (by decide)
        · have hself : acuteDatabase.decomposition c = [c] := if_neg hc
          rw [hself, List.mem_singleton] at hmem
          rw [hself, hmem]
      primary := fun a b => by
        show (if a = 'e' ∧ b = '\u0301' then some '\u00E9' else none) ≠ some 'Σ'
        split_ifs <;> simp }

end Sample

/-- A Cyrillic capital and a zero-width space do not hide the payee. -/
theorem blocklist_catches_acme :
    (blocklistedPayeeRule Sample.acuteDatabase ["acme"]).match'
      (paymentTo "\u0410c\u200Bme") Sample.strangerContext = true := by
  have hletters : ∀ entry ∈ confusables, ∀ d, InCase entry.1 d → Sample.acuteDatabase.Opens d := by
    rintro entry hentry d (rfl | hd)
    · exact Sample.acute_opens ((by decide : ∀ e ∈ confusables, e.1 ≠ '\u0301') entry hentry)
    · exact Sample.acute_opens ((by decide : ∀ e ∈ capitals, e.2 ≠ '\u0301') _ hd)
  have hpayee : PieceByPiece Sample.acuteDatabase "acme" := by
    refine pieceByPiece_of_opens Sample.payeeCharacters_acute hletters fun c hc x hx => ?_
    have hplain : ∀ c ∈ "acme".toList, Sample.acuteDatabase.decomposition c = [c] ∧
        c ≠ '\u0301' ∧ c ≠ 'Σ' := forall_chars (by decide)
    obtain ⟨hself, hmark, hsigma⟩ := hplain c hc
    rw [hself, List.mem_singleton] at hx
    rw [hx]
    exact ⟨Sample.acute_opens hmark, hsigma⟩
  have hspoof : Spoof "acme" "\u0410c\u200Bme" := by
    refine ⟨['\u0410', 'c', 'm', 'e'], ?_, ?_⟩
    · refine .cons (.inr ⟨('а', 'a'), by decide, .inl rfl, .inr (by decide)⟩) ?_
      exact .cons (.inl rfl) (.cons (.inl rfl) (.cons (.inl rfl) .nil))
    · exact .keep _ (.keep _ (.insert (by decide) (.keep _ (.keep _ .nil))))
  exact (blocklist_catches_spoofs_iff Sample.payeeCharacters_acute "acme").2 hpayee ["acme"]
    (List.mem_singleton_self _) _ hspoof _

/-- A zero-width space before the accent, or a Cyrillic letter under it, hides
the payee from the list. -/
theorem accented_payee_slips :
    PayeeCharacters Sample.acuteDatabase ∧ Spoof "cafe\u0301" "cafe\u200B\u0301" ∧
      Spoof "cafe\u0301" "caf\u0435\u0301" ∧
      ∀ ctx, (blocklistedPayeeRule Sample.acuteDatabase ["cafe\u0301"]).match'
          (paymentTo "cafe\u200B\u0301") ctx = false ∧
        (blocklistedPayeeRule Sample.acuteDatabase ["cafe\u0301"]).match'
          (paymentTo "caf\u0435\u0301") ctx = false := by
  refine ⟨Sample.payeeCharacters_acute, ⟨_, variant_refl _, ?_⟩,
    ⟨['c', 'a', 'f', '\u0435', '\u0301'], ?_, .refl _⟩, fun ctx => ⟨?_, ?_⟩⟩
  · exact .keep _ (.keep _ (.keep _ (.keep _ (.insert (by decide) (.keep _ .nil)))))
  · refine .cons (.inl rfl) (.cons (.inl rfl) (.cons (.inl rfl) (.cons (.inr ?_) ?_)))
    · exact ⟨('е', 'e'), by decide, .inl rfl, .inl rfl⟩
    · exact .cons (.inl rfl) .nil
  · have hslips : normalizePayee Sample.acuteDatabase "cafe\u0301" ≠
        normalizePayee Sample.acuteDatabase "cafe\u200B\u0301" := by decide +kernel
    rw [← Bool.not_eq_true, match_blocklisted]
    rintro ⟨entry, hentry, hlike⟩
    exact hslips (List.mem_singleton.1 hentry ▸ hlike)
  · have hslips : normalizePayee Sample.acuteDatabase "cafe\u0301" ≠
        normalizePayee Sample.acuteDatabase "caf\u0435\u0301" := by decide +kernel
    rw [← Bool.not_eq_true, match_blocklisted]
    rintro ⟨entry, hentry, hlike⟩
    exact hslips (List.mem_singleton.1 hentry ▸ hlike)

end AgentWorth

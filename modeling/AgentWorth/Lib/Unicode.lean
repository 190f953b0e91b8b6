import AgentWorth.Lib.Text

/-!
# Normalization and lower case

The normalization form NFKC and full lower-casing, over a database of the
properties of characters, which grows with each version of Unicode.  Both look
at more than one character at a time: marks are reordered and composed with the
starter before them, and the lower case of a capital sigma depends on the
letters around it.  An inert character stops the first, and the texts on its two
sides are normalized apart.
-/

namespace AgentWorth.Js.Unicode

/-- What normalization and case mapping read of each character. -/
structure Database where
  /-- The full compatibility decomposition. -/
  decomposition : Char → List Char
  combiningClass : Char → Nat
  /-- The primary composite of two characters. -/
  composite : Char → Char → Option Char
  /-- The lower case of every character but the capital sigma. -/
  lower : Char → List Char
  cased : Char → Bool
  caseIgnorable : Char → Bool

namespace Database

variable (u : Database)

/-! ## NFKC -/

/-- A mark moves behind the marks of lower classes. -/
def insertOrdered (c : Char) : List Char → List Char
  | [] => [c]
  | d :: ds =>
      if u.combiningClass d ≠ 0 ∧ u.combiningClass d < u.combiningClass c then
        d :: insertOrdered c ds
      else c :: d :: ds

/-- The canonical ordering. -/
def canonicalOrder : List Char → List Char
  | [] => []
  | c :: cs => u.insertOrdered c (canonicalOrder cs)

/-- Composition after a starter and the marks that stay behind it: a character
is blocked by a mark of its own class or a higher one. -/
def composeFrom (starter : Char) (marks : List Char) : List Char → List Char
  | [] => starter :: marks
  | c :: cs =>
      match if marks.all fun b => u.combiningClass b < u.combiningClass c then
          u.composite starter c else none with
      | some d => composeFrom d marks cs
      | none =>
          if u.combiningClass c = 0 then starter :: (marks ++ composeFrom c [] cs)
          else composeFrom starter (marks ++ [c]) cs

/-- The canonical composition. -/
def compose : List Char → List Char
  | [] => []
  | c :: cs => if u.combiningClass c = 0 then u.composeFrom c [] cs else c :: compose cs

/-- `s.normalize("NFKC")`. -/
def nfkc (s : List Char) : List Char :=
  u.compose (u.canonicalOrder (s.flatMap u.decomposition))

/-! ## Lower case -/

/-- A cased character comes first, after case-ignorable ones. -/
def reachesCased : List Char → Bool
  | [] => false
  | c :: cs => u.cased c || (u.caseIgnorable c && reachesCased cs)

/-- A capital sigma ends a word after a cased letter and before none. -/
def toLowerCaseFrom (before : List Char) : List Char → List Char
  | [] => []
  | c :: cs =>
      (if c = 'Σ' then
          [if u.reachesCased before && !u.reachesCased cs then 'ς' else 'σ']
        else u.lower c) ++ toLowerCaseFrom (c :: before) cs

/-- `s.toLowerCase()`. -/
def toLowerCase (s : List Char) : List Char := u.toLowerCaseFrom [] s

/-- The lower case of a character by itself. -/
def lowerAlone (c : Char) : List Char := if c = 'Σ' then ['σ'] else u.lower c

/-- A capital sigma comes after a cased letter. -/
def LateSigma (before : List Char) : List Char → Bool
  | [] => false
  | c :: cs => (c == 'Σ' && u.reachesCased before) || LateSigma (c :: before) cs

/-! ## Inert characters -/

/-- A starter that composes with nothing. -/
structure Inert (x : Char) : Prop where
  starter : u.combiningClass x = 0
  first : ∀ c, u.composite x c = none
  second : ∀ c, u.composite c x = none

variable {u}

theorem insertOrdered_starter {c x : Char} (h : u.combiningClass x = 0) :
    ∀ as bs : List Char, u.insertOrdered c (as ++ x :: bs) = u.insertOrdered c as ++ x :: bs
  | [], bs => by
      simp [insertOrdered, h]
  | a :: as, bs => by
      have ih := insertOrdered_starter (c := c) h as bs
      rw [List.cons_append, insertOrdered, insertOrdered, ih]
      split_ifs <;> rfl

/-- Marks are ordered on each side of a starter. -/
theorem canonicalOrder_starter {x : Char} (h : u.combiningClass x = 0) (bs : List Char) :
    ∀ as : List Char, u.canonicalOrder (as ++ x :: bs) =
      u.canonicalOrder as ++ x :: u.canonicalOrder bs
  | [] => by
      show u.insertOrdered x (u.canonicalOrder bs) = x :: u.canonicalOrder bs
      cases u.canonicalOrder bs with
      | nil => rfl
      | cons d ds =>
          rw [insertOrdered, if_neg]
          omega
  | a :: as => by
      rw [List.cons_append, canonicalOrder, canonicalOrder, canonicalOrder_starter h bs as,
        insertOrdered_starter h]

theorem composeFrom_inert {x : Char} (hx : u.Inert x) : ∀ cs marks : List Char,
    u.composeFrom x marks cs = x :: (marks ++ u.compose cs)
  | [], marks => by simp [composeFrom, compose]
  | c :: cs, marks => by
      have ih := composeFrom_inert hx cs (marks ++ [c])
      simp only [composeFrom, hx.first, ite_self, compose]
      split_ifs with hc
      · rfl
      · rw [ih, List.append_assoc, List.singleton_append]

theorem composeFrom_append_inert {x : Char} (hx : u.Inert x) (bs : List Char) :
    ∀ (as : List Char) (starter : Char) (marks : List Char),
      u.composeFrom starter marks (as ++ x :: bs) =
        u.composeFrom starter marks as ++ x :: u.compose bs
  | [], starter, marks => by
      simp only [List.nil_append, composeFrom, hx.second, ite_self, hx.starter, if_true,
        composeFrom_inert hx, List.cons_append]
  | a :: as, starter, marks => by
      have ih := composeFrom_append_inert hx bs as
      rw [List.cons_append, composeFrom, composeFrom]
      split
      · exact ih _ _
      · split_ifs with ha
        · rw [ih, List.cons_append, List.append_assoc]
        · exact ih _ _

theorem compose_append_inert {x : Char} (hx : u.Inert x) (bs : List Char) :
    ∀ as : List Char, u.compose (as ++ x :: bs) = u.compose as ++ x :: u.compose bs
  | [] => by
      simp only [List.nil_append, compose, hx.starter, if_true, composeFrom_inert hx]
  | a :: as => by
      have ih := compose_append_inert hx bs as
      rw [List.cons_append, compose, compose]
      split_ifs with ha
      · exact composeFrom_append_inert hx bs as a []
      · rw [ih, List.cons_append]

/-- **An inert character parts the normalization.** -/
theorem nfkc_inert {c x : Char} (hx : u.Inert x) (hc : u.decomposition c = [x])
    (as bs : List Char) : u.nfkc (as ++ c :: bs) = u.nfkc as ++ x :: u.nfkc bs := by
  unfold nfkc
  rw [List.flatMap_append, List.flatMap_cons, hc, List.singleton_append,
    canonicalOrder_starter hx.starter, compose_append_inert hx]

theorem nfkc_nil : u.nfkc [] = [] := rfl

theorem nfkc_singleton {c x : Char} (hc : u.decomposition c = [x]) : u.nfkc [c] = [x] := by
  unfold nfkc
  rw [List.flatMap_singleton, hc]
  show u.compose [x] = [x]
  rw [compose]
  split_ifs <;> rfl

/-! ## Characters that stay by themselves -/

variable (u) in
/-- A starter that composes with no character before it. -/
structure Opens (x : Char) : Prop where
  starter : u.combiningClass x = 0
  second : ∀ c, u.composite c x = none

theorem canonicalOrder_opens : ∀ {s : List Char}, (∀ x ∈ s, u.Opens x) → u.canonicalOrder s = s
  | [], _ => rfl
  | c :: cs, h => by
      have hc := (h c List.mem_cons_self).starter
      have ih := canonicalOrder_opens fun x hx => h x (List.mem_cons_of_mem _ hx)
      have hparts := canonicalOrder_starter hc cs []
      rw [List.nil_append, ih] at hparts
      exact hparts

theorem composeFrom_opens : ∀ {s : List Char} (starter : Char), (∀ x ∈ s, u.Opens x) →
    u.composeFrom starter [] s = starter :: s
  | [], _, _ => rfl
  | c :: cs, starter, h => by
      have hc := h c List.mem_cons_self
      have ih := composeFrom_opens c fun x hx => h x (List.mem_cons_of_mem _ hx)
      simp only [composeFrom, hc.second, ite_self, hc.starter, if_true, List.nil_append, ih]

/-- Starters that compose with nothing before them are normalized one by one. -/
theorem nfkc_opens {s : List Char} (h : ∀ c ∈ s, ∀ x ∈ u.decomposition c, u.Opens x) :
    u.nfkc s = s.flatMap u.decomposition := by
  have hall : ∀ x ∈ s.flatMap u.decomposition, u.Opens x := by
    intro x hx
    obtain ⟨c, hc, hxc⟩ := List.mem_flatMap.1 hx
    exact h c hc x hxc
  unfold nfkc
  rw [canonicalOrder_opens hall]
  generalize s.flatMap u.decomposition = d at hall
  cases d with
  | nil => rfl
  | cons c cs =>
      rw [compose, if_pos (hall c List.mem_cons_self).starter]
      exact composeFrom_opens c fun x hx => hall x (List.mem_cons_of_mem _ hx)

/-! ## Where an inert character stands -/

variable (u) in
/-- An inert character that comes from single characters only. -/
structure Solitary (x : Char) : Prop extends u.Inert x where
  alone : ∀ c, x ∈ u.decomposition c → u.decomposition c = [x]
  primary : ∀ a b, u.composite a b ≠ some x

theorem mem_insertOrdered {c x : Char} : ∀ {s : List Char},
    x ∈ u.insertOrdered c s ↔ x = c ∨ x ∈ s
  | [] => by simp [insertOrdered]
  | d :: ds => by
      have ih := mem_insertOrdered (c := c) (x := x) (s := ds)
      rw [insertOrdered]
      split_ifs
      · rw [List.mem_cons, ih, List.mem_cons]
        tauto
      · rw [List.mem_cons, List.mem_cons]

theorem mem_canonicalOrder {x : Char} : ∀ {s : List Char}, x ∈ u.canonicalOrder s ↔ x ∈ s
  | [] => Iff.rfl
  | c :: cs => by rw [canonicalOrder, mem_insertOrdered, mem_canonicalOrder, List.mem_cons]

theorem mem_composeFrom {x : Char} (hx : ∀ a b, u.composite a b ≠ some x) :
    ∀ {s : List Char} {starter : Char} {marks : List Char},
      x ∈ u.composeFrom starter marks s → x = starter ∨ x ∈ marks ∨ x ∈ s
  | [], starter, marks, h => by
      rcases List.mem_cons.1 h with h | h
      · exact .inl h
      · exact .inr (.inl h)
  | c :: cs, starter, marks, h => by
      rw [composeFrom] at h
      split at h
      next d hd =>
        have hcomposite : u.composite starter c = some d := by
          split_ifs at hd
          exact hd
        rcases mem_composeFrom hx h with rfl | hmarks | hcs
        · exact absurd hcomposite (hx _ _)
        · exact .inr (.inl hmarks)
        · exact .inr (.inr (List.mem_cons_of_mem _ hcs))
      next =>
        split_ifs at h with hc
        · rw [List.mem_cons, List.mem_append] at h
          rcases h with h | h | h
          · exact .inl h
          · exact .inr (.inl h)
          · rcases mem_composeFrom hx h with rfl | hnil | hcs
            · exact .inr (.inr List.mem_cons_self)
            · exact absurd hnil List.not_mem_nil
            · exact .inr (.inr (List.mem_cons_of_mem _ hcs))
        · rcases mem_composeFrom hx h with h | h | h
          · exact .inl h
          · rw [List.mem_append, List.mem_singleton] at h
            rcases h with h | rfl
            · exact .inr (.inl h)
            · exact .inr (.inr List.mem_cons_self)
          · exact .inr (.inr (List.mem_cons_of_mem _ h))

theorem mem_compose {x : Char} (hx : ∀ a b, u.composite a b ≠ some x) :
    ∀ {s : List Char}, x ∈ u.compose s → x ∈ s
  | [], h => h
  | c :: cs, h => by
      rw [compose] at h
      split_ifs at h
      · rcases mem_composeFrom hx h with rfl | hnil | hcs
        · exact List.mem_cons_self
        · exact absurd hnil List.not_mem_nil
        · exact List.mem_cons_of_mem _ hcs
      · rcases List.mem_cons.1 h with rfl | hcs
        · exact List.mem_cons_self
        · exact List.mem_cons_of_mem _ (mem_compose hx hcs)

theorem mem_nfkc {x : Char} (hx : u.Solitary x) {s : List Char} (h : x ∈ u.nfkc s) :
    ∃ c ∈ s, u.decomposition c = [x] := by
  have hdecomposed := mem_canonicalOrder.1 (mem_compose hx.primary h)
  obtain ⟨c, hc, hxc⟩ := List.mem_flatMap.1 hdecomposed
  exact ⟨c, hc, hx.alone c hxc⟩

/-- **Around such a character the text was normalized in two parts.** -/
theorem nfkc_split {x : Char} (hx : u.Solitary x) : ∀ (n : Nat) {s as bs : List Char},
    s.length ≤ n → u.nfkc s = as ++ x :: bs →
      ∃ s₁ c s₂, s = s₁ ++ c :: s₂ ∧ u.decomposition c = [x] ∧ u.nfkc s₁ = as ∧ u.nfkc s₂ = bs
  | 0, s, as, bs, hn, h => by
      rw [List.eq_nil_of_length_eq_zero (Nat.le_zero.1 hn), nfkc_nil] at h
      exact absurd h (List.append_ne_nil_of_right_ne_nil as (List.cons_ne_nil x bs)).symm
  | n + 1, s, as, bs, hn, h => by
      -- the first such character of the text
      obtain ⟨c, hc, hcx⟩ := mem_nfkc hx (s := s) (by
        rw [h]
        exact List.mem_append_right _ List.mem_cons_self)
      obtain ⟨s₁, c₁, s₂, rfl, hcx₁, hfirst⟩ : ∃ s₁ c₁ s₂, s = s₁ ++ c₁ :: s₂ ∧
          u.decomposition c₁ = [x] ∧ ∀ a ∈ s₁, u.decomposition a ≠ [x] := by
        clear h hn
        induction s with
        | nil => exact absurd hc List.not_mem_nil
        | cons a t ih =>
            by_cases ha : u.decomposition a = [x]
            · exact ⟨[], a, t, rfl, ha, fun _ hnil => absurd hnil List.not_mem_nil⟩
            · have hct : c ∈ t := by
                rcases List.mem_cons.1 hc with rfl | hct
                · exact absurd hcx ha
                · exact hct
              obtain ⟨s₁, c₁, s₂, rfl, hcx₁, hfirst⟩ := ih hct
              refine ⟨a :: s₁, c₁, s₂, rfl, hcx₁, fun b hb => ?_⟩
              rcases List.mem_cons.1 hb with rfl | hb
              · exact ha
              · exact hfirst b hb
      have hnone : x ∉ u.nfkc s₁ := fun hmem => by
        obtain ⟨a, ha, hax⟩ := mem_nfkc hx hmem
        exact hfirst a ha hax
      rw [nfkc_inert hx.toInert hcx₁] at h
      rcases List.append_eq_append_iff.1 h with ⟨rest, rfl, hrest⟩ | ⟨rest, hs₁, hrest⟩
      · cases rest with
        | nil =>
            rw [List.nil_append] at hrest
            exact ⟨s₁, c₁, s₂, rfl, hcx₁, (List.append_nil _).symm, List.tail_eq_of_cons_eq hrest⟩
        | cons y rest =>
            obtain ⟨rfl, hs₂⟩ := List.cons.inj hrest
            have hlen : s₂.length ≤ n := by
              rw [List.length_append, List.length_cons] at hn
              omega
            obtain ⟨t₁, d, t₂, rfl, hd, ht₁, ht₂⟩ := nfkc_split hx n hlen hs₂
            refine ⟨s₁ ++ c₁ :: t₁, d, t₂, by simp, hd, ?_, ht₂⟩
            rw [nfkc_inert hx.toInert hcx₁, ht₁]
      · cases rest with
        | nil =>
            rw [List.append_nil] at hs₁
            rw [List.nil_append] at hrest
            exact ⟨s₁, c₁, s₂, rfl, hcx₁, hs₁, (List.tail_eq_of_cons_eq hrest).symm⟩
        | cons y rest =>
            obtain ⟨rfl, -⟩ := List.cons.inj hrest
            refine absurd ?_ hnone
            rw [hs₁]
            exact List.mem_append_right _ List.mem_cons_self

/-- The same of a text normalized in pieces. -/
theorem nfkc_split_pieces {x : Char} (hx : u.Solitary x) :
    ∀ {pieces : List (List Char)} {as bs : List Char}, pieces.flatMap u.nfkc = as ++ x :: bs →
      ∃ (before : List (List Char)) (c : Char) (after : List (List Char)),
        pieces.flatten = before.flatten ++ c :: after.flatten ∧
          u.decomposition c = [x] ∧ before.flatMap u.nfkc = as ∧ after.flatMap u.nfkc = bs
  | [], as, bs, h =>
      absurd h (List.append_ne_nil_of_right_ne_nil as (List.cons_ne_nil x bs)).symm
  | s :: rest, as, bs, h => by
      rw [List.flatMap_cons] at h
      rcases List.append_eq_append_iff.1 h with ⟨front, rfl, hrest⟩ | ⟨front, hs, hrest⟩
      · obtain ⟨before, c, after, hflat, hc, hbefore, hafter⟩ := nfkc_split_pieces hx hrest
        refine ⟨s :: before, c, after, ?_, hc, ?_, hafter⟩
        · rw [List.flatten_cons, hflat, List.flatten_cons, List.append_assoc]
        · rw [List.flatMap_cons, hbefore]
      · cases front with
        | nil =>
            rw [List.append_nil] at hs
            rw [List.nil_append] at hrest
            have hnext : rest.flatMap u.nfkc = [] ++ x :: bs := hrest.symm
            obtain ⟨before, c, after, hflat, hc, hbefore, hafter⟩ := nfkc_split_pieces hx hnext
            refine ⟨s :: before, c, after, ?_, hc, ?_, hafter⟩
            · rw [List.flatten_cons, hflat, List.flatten_cons, List.append_assoc]
            · rw [List.flatMap_cons, hbefore, hs, List.append_nil]
        | cons y front =>
            obtain ⟨rfl, hbs⟩ := List.cons.inj hrest
            obtain ⟨s₁, c, s₂, rfl, hc, hbefore, hafter⟩ := nfkc_split hx _ (le_refl _) hs
            refine ⟨[s₁], c, s₂ :: rest, ?_, hc, ?_, ?_⟩
            · simp
            · rw [List.flatMap_singleton, hbefore]
            · rw [List.flatMap_cons, hafter]
              exact hbs.symm

end Database

/-! ## Inserted characters -/

/-- A text with characters of a kind inserted anywhere. -/
inductive Inserted (p : Char → Bool) : List Char → List Char → Prop
  | nil : Inserted p [] []
  | keep (c : Char) {r q : List Char} : Inserted p r q → Inserted p (c :: r) (c :: q)
  | insert {z : Char} (hz : p z = true) {r q : List Char} : Inserted p r q → Inserted p r (z :: q)

/-- The pieces of a text, with `z` after each. -/
def joinAfter (z : Char) (pieces : List (List Char)) : List Char := pieces.flatMap (· ++ [z])

section

variable {p : Char → Bool}

theorem Inserted.refl : ∀ r : List Char, Inserted p r r
  | [] => .nil
  | c :: cs => .keep c (refl cs)

theorem Inserted.append {r q r' q' : List Char} (h : Inserted p r q) (h' : Inserted p r' q') :
    Inserted p (r ++ r') (q ++ q') := by
  induction h with
  | nil => exact h'
  | keep _ _ ih => exact .keep _ ih
  | insert hz _ ih => exact .insert hz ih

theorem Inserted.reverse {r q : List Char} (h : Inserted p r q) :
    Inserted p r.reverse q.reverse := by
  induction h with
  | nil => exact .nil
  | keep c _ ih =>
      rw [List.reverse_cons, List.reverse_cons]
      exact ih.append (.refl [c])
  | insert hz _ ih =>
      rw [List.reverse_cons, ← List.append_nil (List.reverse _)]
      exact ih.append (.insert hz .nil)

theorem inserted_joinAfter {z : Char} (hz : p z = true) : ∀ pieces : List (List Char),
    Inserted p pieces.flatten (joinAfter z pieces)
  | [] => .nil
  | s :: rest => by
      have ih := inserted_joinAfter hz rest
      rw [joinAfter, List.flatMap_cons, List.append_assoc]
      exact (Inserted.refl s).append (.insert hz ih)

namespace Database

variable {u : Database}

/-- **Inert characters cut a text into pieces that are normalized apart.** -/
theorem nfkc_inserted (hp : ∀ z, p z = true → u.decomposition z = [z] ∧ u.Inert z)
    {r q : List Char} (h : Inserted p r q) : ∀ start : List Char, ∃ pieces : List (List Char),
      pieces.flatten = start ++ r ∧ Inserted p (pieces.flatMap u.nfkc) (u.nfkc (start ++ q)) := by
  induction h with
  | nil => exact fun start => ⟨[start], by simp, by simpa using .refl _⟩
  | keep c _ ih =>
      intro start
      obtain ⟨pieces, hflat, hins⟩ := ih (start ++ [c])
      rw [List.append_assoc, List.singleton_append] at hflat hins
      exact ⟨pieces, hflat, hins⟩
  | insert hz _ ih =>
      intro start
      obtain ⟨hdecomposition, hinert⟩ := hp _ hz
      obtain ⟨pieces, hflat, hins⟩ := ih []
      refine ⟨start :: pieces, by rw [List.flatten_cons, hflat, List.nil_append], ?_⟩
      rw [nfkc_inert hinert hdecomposition, List.flatMap_cons]
      exact (Inserted.refl _).append (.insert hz hins)

theorem nfkc_joinAfter {z : Char} (hinert : u.Inert z) (hz : u.decomposition z = [z])
    (rest : List Char) : ∀ pieces : List (List Char),
      u.nfkc (joinAfter z pieces ++ rest) = joinAfter z (pieces.map u.nfkc) ++ u.nfkc rest
  | [] => rfl
  | s :: pieces => by
      have ih := nfkc_joinAfter hinert hz rest pieces
      simp only [joinAfter, List.flatMap_cons, List.map_cons, List.append_assoc,
        List.cons_append, List.nil_append] at ih ⊢
      rw [nfkc_inert hinert hz, ih]

/-! ## Casing contexts -/

theorem reachesCased_of_inserted (hp : ∀ z, p z = true → u.cased z = false) {r q : List Char}
    (h : Inserted p r q) (hq : u.reachesCased q = true) : u.reachesCased r = true := by
  induction h with
  | nil => exact hq
  | keep c _ ih =>
      simp only [reachesCased, Bool.or_eq_true, Bool.and_eq_true] at hq ⊢
      exact hq.imp_right fun hignored => ⟨hignored.1, ih hignored.2⟩
  | insert hz _ ih =>
      simp only [reachesCased, hp _ hz, Bool.false_or, Bool.and_eq_true] at hq
      exact ih hq.2

/-- Inserted case-ignorable characters are looked past. -/
theorem reachesCased_inserted (hp : ∀ z, p z = true → u.caseIgnorable z = true) {r q : List Char}
    (h : Inserted p r q) (hr : u.reachesCased r = true) : u.reachesCased q = true := by
  induction h with
  | nil => exact hr
  | keep c _ ih =>
      simp only [reachesCased, Bool.or_eq_true, Bool.and_eq_true] at hr ⊢
      exact hr.imp_right fun hignored => ⟨hignored.1, ih hignored.2⟩
  | insert hz _ ih =>
      simp only [reachesCased, Bool.or_eq_true, Bool.and_eq_true]
      exact .inr ⟨hp _ hz, ih hr⟩

theorem lateSigma_of_inserted (hp : ∀ z, p z = true → u.cased z = false ∧ z ≠ 'Σ')
    {r q : List Char} (h : Inserted p r q) : ∀ {before before' : List Char},
      Inserted p before before' → u.LateSigma before' q = true → u.LateSigma before r = true := by
  induction h with
  | nil => exact fun _ hq => hq
  | keep c _ ih =>
      intro before before' hbefore hq
      simp only [LateSigma, Bool.or_eq_true, Bool.and_eq_true] at hq ⊢
      refine hq.imp (fun hsigma => ⟨hsigma.1, ?_⟩) (ih (.keep c hbefore))
      exact reachesCased_of_inserted (fun z hz => (hp z hz).1) hbefore hsigma.2
  | insert hz _ ih =>
      intro before before' hbefore hq
      have hne : ∀ {z : Char}, p z = true → (z == 'Σ') = false := fun hz =>
        beq_eq_false_iff_ne.2 (hp _ hz).2
      simp only [LateSigma, hne hz, Bool.false_and, Bool.false_or] at hq
      exact ih (.insert hz hbefore) hq

/-- Lower case depends on the text before through its last letter only. -/
theorem toLowerCaseFrom_congr {before before' : List Char}
    (h : u.reachesCased before = u.reachesCased before') : ∀ s : List Char,
      u.toLowerCaseFrom before s = u.toLowerCaseFrom before' s := by
  intro s
  induction s generalizing before before' with
  | nil => rfl
  | cons c cs ih =>
      have hnext : u.reachesCased (c :: before) = u.reachesCased (c :: before') := by
        simp only [reachesCased, h]
      rw [toLowerCaseFrom, toLowerCaseFrom, h, ih hnext]

/-- Where no capital sigma comes after a letter, characters lower one by one. -/
theorem toLowerCaseFrom_append (rest : List Char) : ∀ {s before : List Char},
    u.LateSigma before s = false → u.toLowerCaseFrom before (s ++ rest) =
      s.flatMap u.lowerAlone ++ u.toLowerCaseFrom (s.reverse ++ before) rest
  | [], _, _ => rfl
  | c :: cs, before, h => by
      simp only [LateSigma, Bool.or_eq_false_iff, Bool.and_eq_false_imp, beq_iff_eq] at h
      have ih := toLowerCaseFrom_append rest h.2
      rw [List.cons_append, toLowerCaseFrom, ih, List.flatMap_cons, List.reverse_cons,
        List.append_assoc, List.append_assoc, List.singleton_append]
      congr 1
      by_cases hc : c = 'Σ'
      · rw [lowerAlone, if_pos hc, if_pos hc, h.1 hc, Bool.false_and]
        rfl
      · rw [lowerAlone, if_neg hc, if_neg hc]

theorem toLowerCase_of_not_lateSigma {s : List Char} (h : u.LateSigma [] s = false) :
    u.toLowerCase s = s.flatMap u.lowerAlone := by
  have happend := toLowerCaseFrom_append [] h
  rw [List.append_nil] at happend
  rw [toLowerCase, happend]
  exact List.append_nil _

theorem lateSigma_of_not_mem : ∀ {s before : List Char}, 'Σ' ∉ s → u.LateSigma before s = false
  | [], _, _ => rfl
  | c :: cs, before, h => by
      rw [List.mem_cons, not_or] at h
      rw [LateSigma, beq_eq_false_iff_ne.2 (Ne.symm h.1), Bool.false_and, Bool.false_or]
      exact lateSigma_of_not_mem h.2

/-- The first capital sigma after a letter. -/
theorem lateSigma_split : ∀ {s before : List Char}, u.LateSigma before s = true →
    ∃ as bs, s = as ++ 'Σ' :: bs ∧ u.LateSigma before as = false ∧
      u.reachesCased (as.reverse ++ before) = true
  | [], _, h => absurd h Bool.false_ne_true
  | c :: cs, before, h => by
      by_cases hc : (c == 'Σ' && u.reachesCased before) = true
      · rw [Bool.and_eq_true, beq_iff_eq] at hc
        exact ⟨[], cs, by rw [hc.1, List.nil_append], rfl, hc.2⟩
      · rw [Bool.not_eq_true] at hc
        rw [LateSigma, hc, Bool.false_or] at h
        obtain ⟨as, bs, rfl, hearlier, hlate⟩ := lateSigma_split h
        refine ⟨c :: as, bs, rfl, ?_, ?_⟩
        · rw [LateSigma, hc, hearlier]
          rfl
        · rwa [List.reverse_cons, List.append_assoc, List.singleton_append]

end Database

end

end AgentWorth.Js.Unicode

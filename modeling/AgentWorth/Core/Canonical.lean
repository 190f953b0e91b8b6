import AgentWorth.Core.Blocklist
import AgentWorth.Lib.NormalForm

/-!
# Canonical payees

`normalizePayee` normalizes first and lower-cases, strips and folds afterwards,
and nothing normalizes what that leaves: a letter that has become a Latin small
one, or lost the invisible character behind it, may stand before a mark it
composes with.  Normalizing again then composes them, so the form is canonical
exactly for the payees whose folded text is still in NFKC.

That nothing else can happen is a matter of weight.  Normalization keeps the
decomposed characters of a text, and each further fold, strip or trim lowers
their number or the number of look-alikes among them.
-/

namespace AgentWorth

open AgentWorth.Js AgentWorth.Js.Unicode

/-! ## What Unicode says of case, white space and normal forms -/

/-- Lower case leaves the character as it is. -/
def Small (u : Database) (x : Char) : Prop := x ≠ 'Σ' ∧ u.lower x = [x]

/-- Lower case leaves it and its decomposition as they are. -/
def SmallThroughout (u : Database) (x : Char) : Prop :=
  Small u x ∧ ∀ y ∈ u.decomposition x, Small u y

/-- The entries of the database the order of the steps depends on. -/
structure NormalText (u : Database) : Prop where
  full : u.FullDecompositions
  /-- Lower-casing the characters of a normal form leaves small characters, which
  are so throughout. -/
  lowered : ∀ c, u.Composed c → c ≠ 'Σ' → ∀ x ∈ u.lower c, SmallThroughout u x
  sigma : SmallThroughout u 'ς' ∧ SmallThroughout u 'σ'
  /-- Small characters compose to small ones. -/
  composite : ∀ {a b d}, u.Composed a → u.Composed b → Small u a → Small u b →
    u.composite a b = some d → Small u d
  /-- White space neither composes nor has a case. -/
  space : ∀ x, isSpace x = true → isInvisible x = false →
    u.Inert x ∧ (∀ a b, u.composite a b ≠ some x) ∧ ∀ c, x ∈ u.lower c → c = x

/-- Lower-cased, stripped and folded, the payee's NFKC form is still in NFKC:
no character comes to stand where it composes or reorders. -/
def StaysNormal (u : Database) (payee : String) : Prop :=
  u.nfkc (foldText (u.toLowerCase (u.nfkc payee.toList))) =
    foldText (u.toLowerCase (u.nfkc payee.toList))

instance (u : Database) (payee : String) : Decidable (StaysNormal u payee) :=
  inferInstanceAs (Decidable (_ = _))

variable {u : Database}

/-! ## Folded texts -/

theorem confusables_fold : ∀ entry ∈ confusables,
    confusables.lookup entry.2 = none ∧ isInvisible entry.2 = false ∧ isSpace entry.2 = false ∧
      entry.2 ≠ 'Σ' := by
  decide

/-- What the loop makes of one character. -/
theorem foldText_cons (c : Char) (s : List Char) :
    foldText (c :: s) = foldText [c] ++ foldText s := foldText_append [c] s

theorem foldText_plain {c : Char} (hvisible : isInvisible c = false)
    (hkey : confusables.lookup c = none) : foldText [c] = [c] := by
  simp [foldText, hvisible, hkey]

theorem foldText_self {s : List Char}
    (h : ∀ c ∈ s, isInvisible c = false ∧ confusables.lookup c = none) : foldText s = s := by
  induction s with
  | nil => rfl
  | cons c cs ih =>
      obtain ⟨⟨hvisible, hkey⟩, hcs⟩ := List.forall_mem_cons.1 h
      rw [foldText_cons, foldText_plain hvisible hkey, ih hcs, List.singleton_append]

/-- The characters of a folded text: Latin letters of the table, and visible
characters that are no look-alikes. -/
theorem mem_foldText {x : Char} {s : List Char} (h : x ∈ foldText s) :
    (∃ entry ∈ confusables, x = entry.2) ∨
      x ∈ s ∧ isInvisible x = false ∧ confusables.lookup x = none := by
  obtain ⟨c, hc, hx⟩ := List.mem_flatMap.1 h
  by_cases hvisible : isInvisible c = true
  · rw [if_pos hvisible] at hx
    cases hx
  · rw [if_neg hvisible, List.mem_singleton] at hx
    rw [Bool.not_eq_true] at hvisible
    cases hkey : confusables.lookup c with
    | none =>
        rw [hkey] at hx
        have hself : x = c := hx
        exact .inr ⟨hself ▸ hc, hself ▸ hvisible, hself ▸ hkey⟩
    | some letter =>
        rw [hkey] at hx
        obtain ⟨before, after, hsplit, -⟩ := List.lookup_eq_some_iff.1 hkey
        refine .inl ⟨(c, letter), ?_, hx⟩
        rw [hsplit]
        exact List.mem_append_right _ List.mem_cons_self

theorem folded_plain {x : Char} {s : List Char} (h : x ∈ foldText s) :
    isInvisible x = false ∧ confusables.lookup x = none := by
  rcases mem_foldText h with ⟨entry, hentry, rfl⟩ | ⟨-, hplain⟩
  · obtain ⟨hkey, hvisible, -⟩ := confusables_fold entry hentry
    exact ⟨hvisible, hkey⟩
  · exact hplain

theorem latin_small (hu : PayeeCharacters u) {entry : Char × Char} (h : entry ∈ confusables) :
    u.decomposition entry.2 = [entry.2] ∧ Small u entry.2 := by
  obtain ⟨hself, hlower⟩ := hu.latin entry h entry.2 (.inl rfl)
  exact ⟨hself, (confusables_fold entry h).2.2.2, hlower⟩

/-- The characters of a payee's folded text are small throughout. -/
theorem folded_small (hu : PayeeCharacters u) (hn : NormalText u) {s : List Char} {x : Char}
    (h : x ∈ foldText (u.toLowerCase (u.nfkc s))) : SmallThroughout u x := by
  rcases mem_foldText h with ⟨entry, hentry, rfl⟩ | ⟨hlower, -⟩
  · obtain ⟨hself, hsmall⟩ := latin_small hu hentry
    refine ⟨hsmall, fun y hy => ?_⟩
    rw [hself, List.mem_singleton] at hy
    rw [hy]
    exact hsmall
  · rcases Database.mem_toLowerCaseFrom hlower with rfl | rfl | ⟨c, hc, hsigma, hx⟩
    · exact hn.sigma.1
    · exact hn.sigma.2
    · exact hn.lowered c (Database.composed_of_mem_nfkc hn.full hc) hsigma x hx

/-- White space of a payee's folded text was there from the start, and stands for
itself. -/
theorem folded_space (hn : NormalText u) {s : List Char} {x : Char}
    (h : x ∈ foldText (u.toLowerCase (u.nfkc s))) (hspace : isSpace x = true) :
    u.Inert x ∧ u.decomposition x = [x] := by
  obtain ⟨hinert, hprimary, hcaseless⟩ := hn.space x hspace (folded_plain h).1
  refine ⟨hinert, ?_⟩
  rcases mem_foldText h with ⟨entry, hentry, rfl⟩ | ⟨hlower, -⟩
  · rw [(confusables_fold entry hentry).2.2.1] at hspace
    cases hspace
  · rcases Database.mem_toLowerCaseFrom hlower with rfl | rfl | ⟨c, hc, -, hx⟩
    · exact absurd hspace (by decide)
    · exact absurd hspace (by decide)
    · rw [hcaseless c hx] at hc
      have hdecomposed := Database.mem_canonicalOrder.1 (Database.mem_compose hprimary hc)
      obtain ⟨d, -, hd⟩ := List.mem_flatMap.1 hdecomposed
      exact hn.full.complete d x hd

/-- Normalizing small characters leaves nothing to lower. -/
theorem toLowerCase_nfkc (hn : NormalText u) {t : List Char}
    (h : ∀ x ∈ t, SmallThroughout u x) : u.toLowerCase (u.nfkc t) = u.nfkc t := by
  have hclosed : ∀ x ∈ u.nfkc t, u.Composed x ∧ Small u x := by
    refine Database.nfkc_closed (fun {a b d} ha hb hd => ?_) fun c hc x hx => ?_
    · exact ⟨.pair ha.1 hb.1 hd, hn.composite ha.1 hb.1 ha.2 hb.2 hd⟩
    · exact ⟨.whole (hn.full.complete c x hx), (h c hc).2 x hx⟩
  exact Database.toLowerCase_self fun x hx => (hclosed x hx).2

/-! ## Weight -/

/-- The decomposed characters of a text, look-alikes counted twice. -/
def textWeight (u : Database) (s : List Char) : ℕ :=
  (s.flatMap u.decomposition).length +
    (s.flatMap u.decomposition).countP fun c => (confusables.lookup c).isSome

theorem textWeight_append (s t : List Char) :
    textWeight u (s ++ t) = textWeight u s + textWeight u t := by
  unfold textWeight
  rw [List.flatMap_append, List.length_append, List.countP_append]
  omega

theorem textWeight_cons (c : Char) (s : List Char) :
    textWeight u (c :: s) = textWeight u [c] + textWeight u s :=
  textWeight_append [c] s

theorem textWeight_nfkc (hn : NormalText u) (s : List Char) :
    textWeight u (u.nfkc s) = textWeight u s := by
  have hperm := Database.nfkc_perm hn.full s
  unfold textWeight
  rw [hperm.length_eq, hperm.countP_eq]

theorem length_le_weight (hn : NormalText u) (s : List Char) : s.length ≤ textWeight u s := by
  induction s with
  | nil => exact Nat.zero_le _
  | cons c cs ih =>
      have hpos : 0 < (u.decomposition c).length := List.length_pos_iff.2 (hn.full.nonempty c)
      have hone : 1 ≤ textWeight u [c] := by
        unfold textWeight
        rw [List.flatMap_singleton]
        omega
      rw [textWeight_cons, List.length_cons]
      omega

/-- **A fold or a strip that changes a character lowers the weight.** -/
theorem textWeight_foldText_singleton (hu : PayeeCharacters u) (c : Char) :
    foldText [c] = [c] ∨ textWeight u (foldText [c]) < textWeight u [c] := by
  by_cases hvisible : isInvisible c = true
  · have hgone : foldText [c] = [] := by simp [foldText, hvisible]
    refine .inr ?_
    rw [hgone, textWeight, textWeight, List.flatMap_singleton, (hu.invisible c hvisible).1]
    simp
  · rw [Bool.not_eq_true] at hvisible
    cases hkey : confusables.lookup c with
    | none => exact .inl (foldText_plain hvisible hkey)
    | some letter =>
        obtain ⟨before, after, hsplit, -⟩ := List.lookup_eq_some_iff.1 hkey
        have hentry : (c, letter) ∈ confusables := by
          rw [hsplit]
          exact List.mem_append_right _ List.mem_cons_self
        have hfold : foldText [c] = [letter] := by simp [foldText, hvisible, hkey]
        have hself : u.decomposition c = [c] := (hu.lookAlike _ hentry c (.inl rfl)).1
        have hletter : u.decomposition letter = [letter] := (latin_small hu hentry).1
        have hlatin : confusables.lookup letter = none := (confusables_fold _ hentry).1
        refine .inr ?_
        rw [hfold, textWeight, textWeight, List.flatMap_singleton, List.flatMap_singleton, hself,
          hletter]
        simp [hkey, hlatin]

theorem textWeight_foldText (hu : PayeeCharacters u) (s : List Char) :
    foldText s = s ∨ textWeight u (foldText s) < textWeight u s := by
  induction s with
  | nil => exact .inl rfl
  | cons c cs ih =>
      rw [foldText_cons, textWeight_append, textWeight_cons c cs]
      rcases textWeight_foldText_singleton hu c with hc | hc
      · rcases ih with hcs | hcs
        · exact .inl (by rw [hc, hcs, List.singleton_append])
        · rw [hc]
          exact .inr (by omega)
      · rcases ih with hcs | hcs
        · rw [hcs]
          exact .inr (by omega)
        · exact .inr (by omega)

theorem textWeight_trimChars (hn : NormalText u) (s : List Char) :
    trimChars s = s ∨ textWeight u (trimChars s) < textWeight u s := by
  obtain ⟨before, after, hsplit, -, -⟩ := trimChars_split s
  have hbefore := length_le_weight hn before
  have hafter := length_le_weight hn after
  have hweight : textWeight u s =
      textWeight u before + (textWeight u (trimChars s) + textWeight u after) := by
    rw [← textWeight_append, ← textWeight_append, ← hsplit]
  by_cases hnone : before.length + after.length = 0
  · have hb : before = [] := List.eq_nil_of_length_eq_zero (by omega)
    have ha : after = [] := List.eq_nil_of_length_eq_zero (by omega)
    rw [hb, ha, List.nil_append, List.append_nil] at hsplit
    exact .inl hsplit.symm
  · exact .inr (by omega)

/-! ## Normalizing again -/

/-- Trimming takes nothing away that normalization looks at. -/
theorem nfkc_trimmed_iff (hn : NormalText u) (s : List Char) :
    u.nfkc (trimChars (foldText (u.toLowerCase (u.nfkc s)))) =
        trimChars (foldText (u.toLowerCase (u.nfkc s))) ↔
      u.nfkc (foldText (u.toLowerCase (u.nfkc s))) = foldText (u.toLowerCase (u.nfkc s)) := by
  have hspace := fun x => @folded_space u hn s x
  generalize foldText (u.toLowerCase (u.nfkc s)) = folded at hspace ⊢
  obtain ⟨before, after, hsplit, hbefore, hafter⟩ := trimChars_split folded
  have hends := Database.nfkc_ends (trimChars folded)
    (fun x hx => hspace x (by
      rw [hsplit]
      exact List.mem_append_left _ hx) (hbefore x hx))
    (fun x hx => hspace x (by
      rw [hsplit]
      exact List.mem_append_right _ (List.mem_append_right _ hx)) (hafter x hx))
  rw [← hsplit] at hends
  rw [hends]
  constructor
  · intro h
    rw [h, ← hsplit]
  · intro h
    exact List.append_cancel_right (List.append_cancel_left (h.trans hsplit))

/-- **A trimmed, folded text normalizes to itself exactly when it is in NFKC.** -/
theorem renormalized_iff (hu : PayeeCharacters u) (hn : NormalText u) {t : List Char}
    (hsmall : ∀ x ∈ t, SmallThroughout u x)
    (hplain : ∀ x ∈ t, isInvisible x = false ∧ confusables.lookup x = none)
    (htrim : trimChars t = t) :
    trimChars (foldText (u.toLowerCase (u.nfkc t))) = t ↔ u.nfkc t = t := by
  rw [toLowerCase_nfkc hn hsmall]
  constructor
  · intro h
    -- the weight is the same all the way round, so no step changes anything
    have hsame := textWeight_nfkc hn t
    rcases textWeight_foldText hu (u.nfkc t) with hfold | hfold
    · rw [hfold] at h
      rcases textWeight_trimChars hn (u.nfkc t) with htrimmed | htrimmed
      · rw [← htrimmed, h]
      · rw [h] at htrimmed
        omega
    · rcases textWeight_trimChars hn (foldText (u.nfkc t)) with htrimmed | htrimmed
      · rw [← htrimmed, h] at hfold
        omega
      · rw [h] at htrimmed
        omega
  · intro h
    rw [h, foldText_self hplain, htrim]

namespace Sample

theorem acute_smalls : ∀ entry ∈ capitals ++ otherCapitals,
    entry.1 ≠ 'Σ' ∧ acuteDatabase.lower entry.1 = [entry.1] ∧
      acuteDatabase.decomposition entry.1 = [entry.1] ∧ isSpace entry.1 = false := by
  decide

theorem acute_decomposition {c : Char} (h : c ≠ '\u00E9') : acuteDatabase.decomposition c = [c] :=
  if_neg h

theorem acute_composite {a b d : Char} (h : acuteDatabase.composite a b = some d) :
    a = 'e' ∧ b = '\u0301' ∧ d = '\u00E9' := by
  have hpair : (if a = 'e' ∧ b = '\u0301' then some '\u00E9' else none) = some d := h
  split_ifs at hpair with hparts
  exact ⟨hparts.1, hparts.2, (Option.some.inj hpair).symm⟩

/-- A lower case is a small letter of the fragment, or the character itself. -/
theorem acute_lower {c x : Char} (h : x ∈ acuteDatabase.lower c) :
    (∃ entry ∈ capitals ++ otherCapitals, x = entry.1) ∨
      x = c ∧ acuteDatabase.lower c = [c] := by
  have hlower : acuteDatabase.lower c =
      [(((capitals ++ otherCapitals).find? fun entry => entry.2 == c).map Prod.fst).getD c] := rfl
  cases hfind : (capitals ++ otherCapitals).find? fun entry => entry.2 == c with
  | none =>
      rw [hfind] at hlower
      have hself : acuteDatabase.lower c = [c] := hlower
      rw [hself, List.mem_singleton] at h
      exact .inr ⟨h, hself⟩
  | some entry =>
      rw [hfind] at hlower
      rw [hlower, List.mem_singleton] at h
      exact .inl ⟨entry, List.mem_of_find?_eq_some hfind, h⟩

theorem acute_small_accented : Small acuteDatabase '\u00E9' ∧
    ∀ y ∈ acuteDatabase.decomposition '\u00E9', Small acuteDatabase y := by
  have hparts : acuteDatabase.decomposition '\u00E9' = ['e', '\u0301'] := rfl
  refine ⟨⟨by decide, by decide⟩, fun y hy => ?_⟩
  rw [hparts, List.mem_cons, List.mem_singleton] at hy
  rcases hy with rfl | rfl
  · exact ⟨by decide, by decide⟩
  · exact ⟨by decide, by decide⟩

theorem acute_smallThroughout {x : Char} (hsmall : Small acuteDatabase x) :
    SmallThroughout acuteDatabase x := by
  by_cases haccent : x = '\u00E9'
  · rw [haccent]
    exact acute_small_accented
  · refine ⟨hsmall, fun y hy => ?_⟩
    rw [acute_decomposition haccent, List.mem_singleton] at hy
    rw [hy]
    exact hsmall

theorem normalText_acute : NormalText acuteDatabase where
  full :=
    { nonempty := fun c => by
        by_cases haccent : c = '\u00E9'
        · rw [haccent]
          decide
        · rw [acute_decomposition haccent]
          exact List.cons_ne_nil _ _
      complete := fun c x hx => by
        refine acute_decomposition ?_
        rintro rfl
        by_cases haccent : c = '\u00E9'
        · rw [haccent] at hx
          exact absurd hx (by decide)
        · rw [acute_decomposition haccent, List.mem_singleton] at hx
          exact haccent hx.symm
      primary := fun {a b d} h => by
        obtain ⟨rfl, rfl, rfl⟩ := acute_composite h
        exact .refl _ }
  lowered c _ hsigma x hx := by
    refine acute_smallThroughout ?_
    rcases acute_lower hx with ⟨entry, hentry, rfl⟩ | ⟨rfl, hself⟩
    · obtain ⟨hne, hlower, -⟩ := acute_smalls entry hentry
      exact ⟨hne, hlower⟩
    · exact ⟨hsigma, hself⟩
  sigma := ⟨acute_smallThroughout ⟨by decide, by decide⟩,
    acute_smallThroughout ⟨by decide, by decide⟩⟩
  composite := by
    intro a b d _ _ _ _ h
    obtain ⟨-, -, rfl⟩ := acute_composite h
    exact acute_small_accented.1
  space x hspace _ := by
    have hne : ∀ {y : Char}, isSpace y = false → x ≠ y := by
      rintro y hy rfl
      exact Bool.false_ne_true (hy.symm.trans hspace)
    have hmark : x ≠ '\u0301' := hne (by decide)
    refine ⟨⟨if_neg hmark, acute_first (hne (by decide)), (acute_opens hmark).second⟩, ?_, ?_⟩
    · intro a b h
      exact hne (by decide) (acute_composite h).2.2
    · intro c hx
      rcases acute_lower hx with ⟨entry, hentry, heq⟩ | ⟨heq, -⟩
      · exact absurd heq (hne (acute_smalls entry hentry).2.2.2)
      · exact heq.symm

end Sample

end AgentWorth

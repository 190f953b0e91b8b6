import AgentWorth.Lib.Unicode

/-!
# What normalization keeps

Normalization moves marks and puts characters together, and neither changes
which characters a text decomposes into, nor how often.  What holds of the
characters of the decompositions, and passes from two characters to their
composite, holds of every character of the normal form.
-/

namespace AgentWorth.Js.Unicode.Database

variable (u : Database)

/-- Full decompositions: none is empty, decomposing again changes nothing, and a
primary composite decomposes into what its parts do, up to order. -/
structure FullDecompositions : Prop where
  nonempty : ∀ c, u.decomposition c ≠ []
  complete : ∀ c, ∀ x ∈ u.decomposition c, u.decomposition x = [x]
  primary : ∀ {a b d}, u.composite a b = some d →
    (u.decomposition d).Perm (u.decomposition a ++ u.decomposition b)

/-- The characters normal forms are made of. -/
inductive Composed : Char → Prop
  | whole {c : Char} : u.decomposition c = [c] → Composed c
  | pair {a b d : Char} : Composed a → Composed b → u.composite a b = some d → Composed d

variable {u}

/-! ## The decomposed characters -/

theorem insertOrdered_perm (c : Char) (s : List Char) : (u.insertOrdered c s).Perm (c :: s) := by
  induction s with
  | nil => exact .refl _
  | cons d ds ih =>
      rw [insertOrdered]
      by_cases hbehind : u.combiningClass d ≠ 0 ∧ u.combiningClass d < u.combiningClass c
      · rw [if_pos hbehind]
        exact (ih.cons d).trans (.swap c d ds)
      · rw [if_neg hbehind]

theorem canonicalOrder_perm (s : List Char) : (u.canonicalOrder s).Perm s := by
  induction s with
  | nil => exact .refl _
  | cons c cs ih => exact (insertOrdered_perm c _).trans (ih.cons c)

/-- Composition keeps the decomposed characters. -/
theorem composeFrom_perm (hu : u.FullDecompositions) (s : List Char) :
    ∀ (starter : Char) (marks : List Char), ((u.composeFrom starter marks s).flatMap
      u.decomposition).Perm ((starter :: (marks ++ s)).flatMap u.decomposition) := by
  induction s with
  | nil =>
      intro starter marks
      rw [composeFrom, List.append_nil]
  | cons c cs ih =>
      intro starter marks
      rw [composeFrom]
      split
      next d hd =>
        have hcomposite : u.composite starter c = some d := by
          split_ifs at hd
          exact hd
        have hmoved : (starter :: (marks ++ c :: cs)).Perm (starter :: c :: (marks ++ cs)) :=
          List.perm_middle.cons starter
        refine (ih d marks).trans (.trans ?_ (hmoved.flatMap_right u.decomposition).symm)
        simp only [List.flatMap_cons, ← List.append_assoc]
        exact ((hu.primary hcomposite).append_right _)
      next =>
        by_cases hstarter : u.combiningClass c = 0
        · rw [if_pos hstarter]
          have hnext := ih c []
          rw [List.nil_append] at hnext
          simp only [List.flatMap_cons, List.flatMap_append] at hnext ⊢
          exact (hnext.append_left _).append_left _
        · rw [if_neg hstarter]
          have hmark := ih starter (marks ++ [c])
          rwa [List.append_assoc, List.singleton_append] at hmark

theorem compose_perm (hu : u.FullDecompositions) (s : List Char) :
    ((u.compose s).flatMap u.decomposition).Perm (s.flatMap u.decomposition) := by
  induction s with
  | nil => exact .refl _
  | cons c cs ih =>
      rw [compose]
      by_cases hstarter : u.combiningClass c = 0
      · rw [if_pos hstarter]
        exact composeFrom_perm hu cs c []
      · rw [if_neg hstarter, List.flatMap_cons, List.flatMap_cons]
        exact ih.append_left _

theorem flatMap_decomposition (hu : u.FullDecompositions) (s : List Char) :
    (s.flatMap u.decomposition).flatMap u.decomposition = s.flatMap u.decomposition := by
  rw [List.flatMap_assoc]
  refine List.flatMap_congr fun c _ => ?_
  have hself : ∀ x ∈ u.decomposition c, u.decomposition x = [x] := hu.complete c
  rw [List.flatMap_congr hself, List.flatMap_singleton']

/-- **A text and its normal form decompose into the same characters.** -/
theorem nfkc_perm (hu : u.FullDecompositions) (s : List Char) :
    ((u.nfkc s).flatMap u.decomposition).Perm (s.flatMap u.decomposition) := by
  have hordered := (canonicalOrder_perm (u := u) (s.flatMap u.decomposition)).flatMap_right
    u.decomposition
  rw [flatMap_decomposition hu] at hordered
  exact (compose_perm hu _).trans hordered

/-! ## The characters of the normal form -/

section

variable {P : Char → Prop} (hpair : ∀ {a b d}, P a → P b → u.composite a b = some d → P d)

include hpair

theorem composeFrom_closed (s : List Char) : ∀ {starter : Char} {marks : List Char}, P starter →
    (∀ x ∈ marks, P x) → (∀ x ∈ s, P x) → ∀ x ∈ u.composeFrom starter marks s, P x := by
  induction s with
  | nil =>
      intro starter marks hstarter hmarks _ x hx
      rcases List.mem_cons.1 hx with rfl | hx
      · exact hstarter
      · exact hmarks x hx
  | cons c cs ih =>
      intro starter marks hstarter hmarks hs
      obtain ⟨hc, hcs⟩ := List.forall_mem_cons.1 hs
      rw [composeFrom]
      split
      next d hd =>
        have hcomposite : u.composite starter c = some d := by
          split_ifs at hd
          exact hd
        exact ih (hpair hstarter hc hcomposite) hmarks hcs
      next =>
        by_cases hnext : u.combiningClass c = 0
        · rw [if_pos hnext]
          have hrest := ih hc (fun x hx => absurd hx List.not_mem_nil) hcs
          exact List.forall_mem_cons.2 ⟨hstarter, List.forall_mem_append.2 ⟨hmarks, hrest⟩⟩
        · rw [if_neg hnext]
          refine ih hstarter (List.forall_mem_append.2 ⟨hmarks, ?_⟩) hcs
          exact List.forall_mem_singleton.2 hc

theorem compose_closed (s : List Char) (hs : ∀ x ∈ s, P x) : ∀ x ∈ u.compose s, P x := by
  induction s with
  | nil => exact hs
  | cons c cs ih =>
      obtain ⟨hc, hcs⟩ := List.forall_mem_cons.1 hs
      rw [compose]
      by_cases hstarter : u.combiningClass c = 0
      · rw [if_pos hstarter]
        exact composeFrom_closed hpair cs hc (fun x hx => absurd hx List.not_mem_nil) hcs
      · rw [if_neg hstarter]
        exact List.forall_mem_cons.2 ⟨hc, ih hcs⟩

/-- **What holds of the decompositions and of composites holds of the normal
form.** -/
theorem nfkc_closed {s : List Char} (hs : ∀ c ∈ s, ∀ x ∈ u.decomposition c, P x) :
    ∀ x ∈ u.nfkc s, P x := by
  refine compose_closed hpair _ fun x hx => ?_
  obtain ⟨c, hc, hxc⟩ := List.mem_flatMap.1 (mem_canonicalOrder.1 hx)
  exact hs c hc x hxc

end

theorem composed_of_mem_nfkc (hu : u.FullDecompositions) {s : List Char} {x : Char}
    (h : x ∈ u.nfkc s) : u.Composed x :=
  nfkc_closed .pair (fun c _ x hx => .whole (hu.complete c x hx)) x h

/-- Inert characters at the ends stay there. -/
theorem nfkc_ends {before after : List Char} (s : List Char)
    (hbefore : ∀ x ∈ before, u.Inert x ∧ u.decomposition x = [x])
    (hafter : ∀ x ∈ after, u.Inert x ∧ u.decomposition x = [x]) :
    u.nfkc (before ++ (s ++ after)) = before ++ (u.nfkc s ++ after) := by
  induction before with
  | nil =>
      rw [List.nil_append, List.nil_append]
      induction after generalizing s with
      | nil => rw [List.append_nil, List.append_nil]
      | cons x after ih =>
          obtain ⟨⟨hinert, hself⟩, hrest⟩ := List.forall_mem_cons.1 hafter
          have hnone := ih [] hrest
          rw [List.nil_append, nfkc_nil, List.nil_append] at hnone
          rw [nfkc_inert hinert hself, hnone]
  | cons x before ih =>
      obtain ⟨⟨hinert, hself⟩, hrest⟩ := List.forall_mem_cons.1 hbefore
      have hparts := nfkc_inert hinert hself [] (before ++ (s ++ after))
      rw [List.nil_append, nfkc_nil, List.nil_append, ih hrest] at hparts
      exact hparts

/-! ## Lower case -/

theorem toLowerCase_self {s : List Char} (h : ∀ c ∈ s, c ≠ 'Σ' ∧ u.lower c = [c]) :
    u.toLowerCase s = s := by
  have hsigma : 'Σ' ∉ s := fun hmem => (h _ hmem).1 rfl
  have hself : ∀ c ∈ s, u.lowerAlone c = [c] := by
    intro c hc
    rw [lowerAlone, if_neg (h c hc).1, (h c hc).2]
  rw [toLowerCase_of_not_lateSigma (lateSigma_of_not_mem hsigma), List.flatMap_congr hself,
    List.flatMap_singleton']

theorem mem_toLowerCaseFrom {x : Char} {s : List Char} : ∀ {before : List Char},
    x ∈ u.toLowerCaseFrom before s →
      x = 'ς' ∨ x = 'σ' ∨ ∃ c ∈ s, c ≠ 'Σ' ∧ x ∈ u.lower c := by
  induction s with
  | nil => exact fun h => absurd h List.not_mem_nil
  | cons c cs ih =>
      intro before h
      rw [toLowerCaseFrom, List.mem_append] at h
      rcases h with h | h
      · by_cases hc : c = 'Σ'
        · rw [if_pos hc, List.mem_singleton] at h
          split_ifs at h
          · exact .inl h
          · exact .inr (.inl h)
        · rw [if_neg hc] at h
          exact .inr (.inr ⟨c, List.mem_cons_self, hc, h⟩)
      · refine (ih h).imp_right (.imp_right ?_)
        rintro ⟨d, hd, hlower⟩
        exact ⟨d, List.mem_cons_of_mem _ hd, hlower⟩

end AgentWorth.Js.Unicode.Database

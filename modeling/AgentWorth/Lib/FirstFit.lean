import Mathlib.Data.Finset.Card
import Mathlib.Data.List.Nodup
import Mathlib.Data.List.Sort
import Mathlib.Data.Finset.Dedup
import Mathlib.Order.Bounds.Defs

/-!
# First fit

Each element of one list takes the first element left in another that fits it.
The pairs are sound, nothing is lost or doubled, and no two that are left fit.
As positions, they are the one matching in which no two that fit would both come
earlier with each other; so first fit is as large as any matching exactly when
some largest matching has that property.
-/

namespace AgentWorth.Lib

variable {α β : Type}

/-- The pairs, and what is left on each side. -/
structure Pairing (α β : Type) where
  matched : List (α × β)
  left : List α
  right : List β

def firstFit (r : α → β → Bool) : List α → List β → Pairing α β
  | [], bs => ⟨[], [], bs⟩
  | a :: as, bs =>
      match bs.find? (r a) with
      | some b =>
          let rest := firstFit r as (bs.eraseP (r a))
          { rest with matched := (a, b) :: rest.matched }
      | none =>
          let rest := firstFit r as bs
          { rest with left := a :: rest.left }

section

variable {r : α → β → Bool}

theorem firstFit_some {a : α} {b : β} {bs : List β} (h : bs.find? (r a) = some b)
    (as : List α) : firstFit r (a :: as) bs =
      { firstFit r as (bs.eraseP (r a)) with
        matched := (a, b) :: (firstFit r as (bs.eraseP (r a))).matched } := by
  rw [firstFit, h]

theorem firstFit_none {a : α} {bs : List β} (h : bs.find? (r a) = none) (as : List α) :
    firstFit r (a :: as) bs =
      { firstFit r as bs with left := a :: (firstFit r as bs).left } := by
  rw [firstFit, h]

/-- The first fitting element, and the list without it. -/
theorem find_split {p : β → Bool} {b : β} {bs : List β} (h : bs.find? p = some b) :
    ∃ before after, bs = before ++ b :: after ∧ bs.eraseP p = before ++ after ∧ p b = true ∧
      ∀ x ∈ before, p x = false := by
  obtain ⟨hb, before, after, rfl, hbefore⟩ := List.find?_eq_some_iff_append.1 h
  have hnone : ∀ x ∈ before, p x = false := fun x hx => by simpa using hbefore x hx
  refine ⟨before, after, rfl, ?_, hb, hnone⟩
  rw [List.eraseP_append_right _ fun x hx => by rw [hnone x hx]; exact Bool.false_ne_true,
    List.eraseP_cons_of_pos hb]

/-! ## Conservation and soundness -/

theorem firstFit_left_perm (as : List α) : ∀ bs : List β,
    ((firstFit r as bs).matched.map Prod.fst ++ (firstFit r as bs).left).Perm as := by
  induction as with
  | nil => exact fun _ => .nil
  | cons a as ih =>
      intro bs
      cases h : bs.find? (r a) with
      | some b =>
          rw [firstFit_some h]
          exact (ih _).cons a
      | none =>
          rw [firstFit_none h]
          exact List.perm_middle.trans ((ih bs).cons a)

theorem firstFit_right_perm (as : List α) : ∀ bs : List β,
    ((firstFit r as bs).matched.map Prod.snd ++ (firstFit r as bs).right).Perm bs := by
  induction as with
  | nil => exact fun bs => .refl bs
  | cons a as ih =>
      intro bs
      cases h : bs.find? (r a) with
      | some b =>
          obtain ⟨before, after, hsplit, herase, -, -⟩ := find_split h
          rw [firstFit_some h]
          refine ((ih _).cons b).trans ?_
          rw [herase, hsplit]
          exact List.perm_middle.symm
      | none =>
          rw [firstFit_none h]
          exact ih bs

theorem firstFit_sound (as : List α) : ∀ bs : List β,
    ∀ x ∈ (firstFit r as bs).matched, r x.1 x.2 = true := by
  induction as with
  | nil => exact fun _ _ h => absurd h List.not_mem_nil
  | cons a as ih =>
      intro bs x hx
      cases h : bs.find? (r a) with
      | some b =>
          rw [firstFit_some h] at hx
          rcases List.mem_cons.1 hx with rfl | hx
          · exact List.find?_some h
          · exact ih _ x hx
      | none =>
          rw [firstFit_none h] at hx
          exact ih bs x hx

theorem firstFit_right_subset (as : List α) (bs : List β) :
    ∀ b ∈ (firstFit r as bs).right, b ∈ bs := fun _ hb =>
  (firstFit_right_perm as bs).subset (List.mem_append_right _ hb)

/-- What was passed over early fits nothing that remains. -/
theorem firstFit_maximal (as : List α) : ∀ bs : List β,
    ∀ a ∈ (firstFit r as bs).left, ∀ b ∈ (firstFit r as bs).right, r a b = false := by
  induction as with
  | nil => exact fun _ _ h => absurd h List.not_mem_nil
  | cons a as ih =>
      intro bs a' ha' b' hb'
      cases h : bs.find? (r a) with
      | some b =>
          rw [firstFit_some h] at ha' hb'
          exact ih _ a' ha' b' hb'
      | none =>
          rw [firstFit_none h] at ha' hb'
          rcases List.mem_cons.1 ha' with rfl | ha'
          · have hnone := List.find?_eq_none.1 h b' (firstFit_right_subset as bs b' hb')
            exact Bool.not_eq_true _ ▸ hnone
          · exact ih bs a' ha' b' hb'

/-! ## First come -/

/-- Of two elements that fit, the one has a partner that comes no later, or the
other has. -/
theorem firstFit_first_come {f : α → Nat} {g : β → Nat} :
    ∀ {as : List α} {bs : List β}, as.Pairwise (fun a a' => f a < f a') →
      bs.Pairwise (fun b b' => g b < g b') → ∀ a ∈ as, ∀ b ∈ bs, r a b = true →
        (∃ b', (a, b') ∈ (firstFit r as bs).matched ∧ g b' ≤ g b) ∨
          ∃ a', (a', b) ∈ (firstFit r as bs).matched ∧ f a' ≤ f a
  | [], _, _, _, _, ha, _, _, _ => absurd ha List.not_mem_nil
  | a₀ :: as, bs, has, hbs, a, ha, b, hb, hfit => by
      obtain ⟨hfirst, has⟩ := List.pairwise_cons.1 has
      cases h : bs.find? (r a₀) with
      | some b₀ =>
          obtain ⟨before, after, hsplit, herase, -, hbefore⟩ := find_split h
          rw [firstFit_some h]
          rcases List.mem_cons.1 ha with rfl | ha
          · refine .inl ⟨b₀, List.mem_cons_self, ?_⟩
            rw [hsplit, List.mem_append, List.mem_cons] at hb
            rw [hsplit, List.pairwise_append, List.pairwise_cons] at hbs
            rcases hb with hb | rfl | hb
            · exact absurd hfit (by rw [hbefore b hb]; exact Bool.false_ne_true)
            · exact le_refl _
            · exact (hbs.2.1.1 b hb).le
          · by_cases hb₀ : b = b₀
            · exact .inr ⟨a₀, by rw [hb₀]; exact List.mem_cons_self, (hfirst a ha).le⟩
            · have hrest : b ∈ bs.eraseP (r a₀) := by
                rw [hsplit, List.mem_append, List.mem_cons] at hb
                rw [herase, List.mem_append]
                tauto
              have hsorted : (bs.eraseP (r a₀)).Pairwise (fun b b' => g b < g b') :=
                hbs.sublist List.eraseP_sublist
              exact (firstFit_first_come has hsorted a ha b hrest hfit).imp
                (fun ⟨b', hb', hle⟩ => ⟨b', List.mem_cons_of_mem _ hb', hle⟩)
                (fun ⟨a', ha', hle⟩ => ⟨a', List.mem_cons_of_mem _ ha', hle⟩)
      | none =>
          rw [firstFit_none h]
          rcases List.mem_cons.1 ha with rfl | ha
          · exact absurd hfit (List.find?_eq_none.1 h b hb)
          · exact firstFit_first_come has hbs a ha b hb hfit

end

/-! ## Matchings of positions -/

/-- A one-to-one matching of positions whose elements fit. -/
structure Matching (r : α → β → Bool) (as : List α) (bs : List β) (M : Finset (Nat × Nat)) :
    Prop where
  fits : ∀ x ∈ M, ∃ a b, as[x.1]? = some a ∧ bs[x.2]? = some b ∧ r a b = true
  left : ∀ x ∈ M, ∀ y ∈ M, x.1 = y.1 → x = y
  right : ∀ x ∈ M, ∀ y ∈ M, x.2 = y.2 → x = y

/-- Of two positions that fit, the one is matched with a position no later, or
the other is. -/
def FirstCome (r : α → β → Bool) (as : List α) (bs : List β) (M : Finset (Nat × Nat)) : Prop :=
  ∀ i j a b, as[i]? = some a → bs[j]? = some b → r a b = true →
    (∃ j' ≤ j, (i, j') ∈ M) ∨ ∃ i' ≤ i, (i', j) ∈ M

/-- The sizes of matchings. -/
def matchingSizes (r : α → β → Bool) (as : List α) (bs : List β) : Set Nat :=
  {n | ∃ M, Matching r as bs M ∧ M.card = n}

section

variable {r : α → β → Bool} {as : List α} {bs : List β}

/-- A pair of one first-come matching is a pair of any other: a pair that would
keep it out comes earlier, and the first matching has that one too. -/
theorem FirstCome.mem {M M' : Finset (Nat × Nat)} (hM : Matching r as bs M)
    (hM' : Matching r as bs M') (h : FirstCome r as bs M) (h' : FirstCome r as bs M') :
    ∀ n i j, i + j = n → ((i, j) ∈ M ↔ (i, j) ∈ M') := by
  intro n
  induction n using Nat.strong_induction_on with
  | _ n ih =>
      have hhalf : ∀ {N N' : Finset (Nat × Nat)}, Matching r as bs N → FirstCome r as bs N' →
          (∀ m < n, ∀ i j, i + j = m → ((i, j) ∈ N ↔ (i, j) ∈ N')) →
          ∀ i j, i + j = n → (i, j) ∈ N → (i, j) ∈ N' := by
        intro N N' hN hN' hless i j hij hmem
        obtain ⟨a, b, ha, hb, hfit⟩ := hN.fits _ hmem
        rcases hN' i j a b ha hb hfit with ⟨j', hj', hmem'⟩ | ⟨i', hi', hmem'⟩
        · rcases Nat.lt_or_eq_of_le hj' with hlt | rfl
          · have hearlier := (hless (i + j') (by omega) i j' rfl).2 hmem'
            have heq := congrArg Prod.snd (hN.left _ hmem _ hearlier rfl)
            simp only at heq
            omega
          · exact hmem'
        · rcases Nat.lt_or_eq_of_le hi' with hlt | rfl
          · have hearlier := (hless (i' + j) (by omega) i' j rfl).2 hmem'
            have heq := congrArg Prod.fst (hN.right _ hmem _ hearlier rfl)
            simp only at heq
            omega
          · exact hmem'
      intro i j hij
      exact ⟨hhalf hM h' ih i j hij,
        hhalf hM' h (fun m hm i j hij => (ih m hm i j hij).symm) i j hij⟩

/-- **There is one first-come matching.** -/
theorem FirstCome.unique {M M' : Finset (Nat × Nat)} (hM : Matching r as bs M)
    (hM' : Matching r as bs M') (h : FirstCome r as bs M) (h' : FirstCome r as bs M') :
    M = M' := by
  ext ⟨i, j⟩
  exact FirstCome.mem hM hM' h h' _ i j rfl

/-- First fit looks at the elements only. -/
theorem firstFit_map {γ δ : Type} (f : γ → α) (g : δ → β) : ∀ (cs : List γ) (ds : List δ),
    firstFit r (cs.map f) (ds.map g) =
      { matched := (firstFit (fun c d => r (f c) (g d)) cs ds).matched.map (Prod.map f g)
        left := (firstFit (fun c d => r (f c) (g d)) cs ds).left.map f
        right := (firstFit (fun c d => r (f c) (g d)) cs ds).right.map g }
  | [], ds => rfl
  | c :: cs, ds => by
      have hfind : (ds.map g).find? (r (f c)) =
          (ds.find? fun d => r (f c) (g d)).map g := List.find?_map
      have herase : (ds.map g).eraseP (r (f c)) =
          (ds.eraseP fun d => r (f c) (g d)).map g := List.eraseP_map
      cases h : ds.find? fun d => r (f c) (g d) with
      | some d =>
          rw [h] at hfind
          rw [List.map_cons, firstFit_some hfind, firstFit_some h, herase,
            firstFit_map f g cs (ds.eraseP _)]
          rfl
      | none =>
          rw [h] at hfind
          rw [List.map_cons, firstFit_none hfind, firstFit_none h, firstFit_map f g cs ds]
          rfl

/-- The positions of the elements that first fit pairs. -/
def firstFitPositions (r : α → β → Bool) (as : List α) (bs : List β) : List (Nat × Nat) :=
  (firstFit (fun x y => r x.1 y.1) as.zipIdx bs.zipIdx).matched.map (Prod.map Prod.snd Prod.snd)

theorem pairwise_zipIdx (l : List α) : l.zipIdx.Pairwise fun x y => x.2 < y.2 := by
  have h : (l.zipIdx.map Prod.snd).Pairwise (· < ·) := by
    rw [List.zipIdx_map_snd]
    exact List.pairwise_lt_range'
  exact List.pairwise_map.1 h

theorem length_firstFitPositions :
    (firstFitPositions r as bs).length = (firstFit r as bs).matched.length := by
  have h := firstFit_map (r := r) Prod.fst Prod.fst as.zipIdx bs.zipIdx
  rw [List.zipIdx_map_fst, List.zipIdx_map_fst] at h
  rw [h, firstFitPositions, List.length_map, List.length_map]

theorem nodup_firstFitPositions : ((firstFitPositions r as bs).map Prod.fst).Nodup ∧
    ((firstFitPositions r as bs).map Prod.snd).Nodup := by
  have hleft := (firstFit_left_perm (r := fun x y => r x.1 y.1) as.zipIdx bs.zipIdx).map Prod.snd
  have hright := (firstFit_right_perm (r := fun x y => r x.1 y.1) as.zipIdx bs.zipIdx).map Prod.snd
  rw [List.zipIdx_map_snd, List.map_append, List.map_map] at hleft hright
  have hnodup : ∀ n : Nat, (List.range' 0 n).Nodup := fun n => List.nodup_range'
  constructor
  · rw [firstFitPositions, List.map_map]
    exact (List.nodup_append.1 (hleft.nodup_iff.2 (hnodup _))).1
  · rw [firstFitPositions, List.map_map]
    exact (List.nodup_append.1 (hright.nodup_iff.2 (hnodup _))).1

/-- **First fit is a first-come matching.** -/
theorem matching_firstFit : Matching r as bs (firstFitPositions r as bs).toFinset ∧
    FirstCome r as bs (firstFitPositions r as bs).toFinset := by
  obtain ⟨hleft, hright⟩ := @nodup_firstFitPositions _ _ r as bs
  refine ⟨⟨fun x hx => ?_, fun x hx y hy hxy => ?_, fun x hx y hy hxy => ?_⟩, ?_⟩
  · rw [List.mem_toFinset, firstFitPositions, List.mem_map] at hx
    obtain ⟨⟨⟨a, i⟩, ⟨b, j⟩⟩, hmem, rfl⟩ := hx
    have ha : (a, i) ∈ as.zipIdx := (firstFit_left_perm _ _).subset
      (List.mem_append_left _ (List.mem_map_of_mem hmem))
    have hb : (b, j) ∈ bs.zipIdx := (firstFit_right_perm _ _).subset
      (List.mem_append_left _ (List.mem_map_of_mem hmem))
    exact ⟨a, b, List.mem_zipIdx_iff_getElem?.1 ha, List.mem_zipIdx_iff_getElem?.1 hb,
      firstFit_sound _ _ _ hmem⟩
  · rw [List.mem_toFinset] at hx hy
    exact List.inj_on_of_nodup_map hleft hx hy hxy
  · rw [List.mem_toFinset] at hx hy
    exact List.inj_on_of_nodup_map hright hx hy hxy
  · intro i j a b ha hb hfit
    have hmem : ∀ {x y}, (x, y) ∈ (firstFit (fun x y => r x.1 y.1) as.zipIdx bs.zipIdx).matched →
        (x.2, y.2) ∈ (firstFitPositions r as bs).toFinset := fun hxy =>
      List.mem_toFinset.2 (List.mem_map_of_mem hxy)
    rcases firstFit_first_come (r := fun (x : α × Nat) (y : β × Nat) => r x.1 y.1)
        (pairwise_zipIdx as) (pairwise_zipIdx bs) (a, i) (List.mem_zipIdx_iff_getElem?.2 ha) (b, j)
        (List.mem_zipIdx_iff_getElem?.2 hb) hfit with ⟨y, hy, hle⟩ | ⟨x, hx, hle⟩
    · exact .inl ⟨y.2, hle, hmem hy⟩
    · exact .inr ⟨x.2, hle, hmem hx⟩

/-- **First fit is a largest matching exactly when a largest matching is
first-come.** -/
theorem firstFit_greatest_iff :
    IsGreatest (matchingSizes r as bs) (firstFit r as bs).matched.length ↔
      ∃ M, Matching r as bs M ∧ FirstCome r as bs M ∧
        M.card ∈ upperBounds (matchingSizes r as bs) := by
  obtain ⟨hmatching, hfirst⟩ : Matching r as bs _ ∧ FirstCome r as bs _ := matching_firstFit
  have hcard : (firstFitPositions r as bs).toFinset.card = (firstFit r as bs).matched.length := by
    rw [List.toFinset_card_of_nodup nodup_firstFitPositions.1.of_map, length_firstFitPositions]
  constructor
  · intro h
    refine ⟨_, hmatching, hfirst, ?_⟩
    rw [hcard]
    exact h.2
  · rintro ⟨M, hM, hMfirst, hgreatest⟩
    rw [← FirstCome.unique hmatching hM hfirst hMfirst, hcard] at hgreatest
    exact ⟨⟨_, hmatching, hcard⟩, hgreatest⟩

end

end AgentWorth.Lib

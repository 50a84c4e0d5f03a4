import GovernedRecords.Text.Order

/-!
# Arranged lists

Arranging changes the order of a list and nothing else (`perm_arrange`).  By a relation in which
any two items are related and which is transitive, the items come in order
(`pairwise_arrange`); the order of texts is such a relation.
-/

set_option autoImplicit false

namespace GovernedRecords

section Arrange

variable {α : Type} {precedes : α → α → Bool}

theorem arrange_cons (precedes : α → α → Bool) (first : α) (rest : List α) :
    arrange precedes (first :: rest) = placeOrdered precedes first (arrange precedes rest) := rfl

theorem perm_placeOrdered (precedes : α → α → Bool) (item : α) (items : List α) :
    (placeOrdered precedes item items).Perm (item :: items) := by
  induction items with
  | nil => exact .refl _
  | cons first rest ih =>
      rw [placeOrdered]
      split
      · exact .refl _
      · exact (ih.cons first).trans (.swap item first rest)

/-- An arranged list has the items of the list it was made from. -/
theorem perm_arrange (precedes : α → α → Bool) (items : List α) :
    (arrange precedes items).Perm items := by
  induction items with
  | nil => exact .refl _
  | cons first rest ih => exact (perm_placeOrdered precedes first _).trans (ih.cons first)

theorem map_placeOrdered {β : Type} (precedes : α → α → Bool) (key : β → α) (item : β)
    (items : List β) :
    (placeOrdered (fun first second => precedes (key first) (key second)) item items).map key =
      placeOrdered precedes (key item) (items.map key) := by
  induction items with
  | nil => rfl
  | cons first rest ih =>
      rw [placeOrdered, List.map_cons, placeOrdered]
      split
      · rfl
      · rw [List.map_cons, ih]

/-- Items arranged by their keys have the arranged keys. -/
theorem map_arrange {β : Type} (precedes : α → α → Bool) (key : β → α) (items : List β) :
    (arrange (fun first second => precedes (key first) (key second)) items).map key =
      arrange precedes (items.map key) := by
  induction items with
  | nil => rfl
  | cons first rest ih =>
      simp only [arrange, List.foldr_cons, List.map_cons] at ih ⊢
      rw [map_placeOrdered, ih]

theorem placeOrdered_congr {other : α → α → Bool} {item : α} {items : List α}
    (same : ∀ each ∈ items, precedes item each = other item each) :
    placeOrdered precedes item items = placeOrdered other item items := by
  induction items with
  | nil => rfl
  | cons first rest ih =>
      rw [placeOrdered, placeOrdered, same first List.mem_cons_self,
        ih fun each member => same each (List.mem_cons_of_mem _ member)]

/-- Only how the items themselves are related counts. -/
theorem arrange_congr {other : α → α → Bool} {items : List α}
    (same : ∀ first ∈ items, ∀ second ∈ items, precedes first second = other first second) :
    arrange precedes items = arrange other items := by
  induction items with
  | nil => rfl
  | cons first rest ih =>
      have rest_same : arrange precedes rest = arrange other rest :=
        ih fun each member another also =>
          same each (List.mem_cons_of_mem _ member) another (List.mem_cons_of_mem _ also)
      rw [arrange_cons, arrange_cons, rest_same]
      refine placeOrdered_congr fun each member => ?_
      exact same first List.mem_cons_self each
        (List.mem_cons_of_mem _ ((perm_arrange other rest).mem_iff.mp member))

theorem pairwise_placeOrdered
    (total : ∀ first second, precedes first second || precedes second first)
    (transitive : ∀ {first second third}, precedes first second → precedes second third →
      precedes first third) (item : α) {items : List α}
    (ordered : items.Pairwise fun first second => precedes first second) :
    (placeOrdered precedes item items).Pairwise fun first second => precedes first second := by
  induction ordered with
  | nil => exact List.pairwise_singleton _ _
  | @cons first rest below ordered ih =>
      rw [placeOrdered]
      split
      · next leads =>
          refine .cons ?_ (.cons below ordered)
          intro other member
          rcases List.mem_cons.mp member with rfl | later
          · exact leads
          · exact transitive leads (below other later)
      · next follows =>
          have leads : precedes first item = true := by
            have either := total item first
            simpa [follows] using either
          refine .cons ?_ ih
          intro other member
          rcases List.mem_cons.mp ((perm_placeOrdered precedes item rest).mem_iff.mp member) with
            rfl | later
          · exact leads
          · exact below other later

/-- Items that stand in one relation and may precede each other both ways keep that relation. -/
theorem stable_placeOrdered {before : α → α → Prop} {item : α} {items : List α}
    (follow : ∀ other ∈ items, before item other)
    (stable : items.Pairwise fun first second => precedes second first → before first second) :
    (placeOrdered precedes item items).Pairwise
      fun first second => precedes second first → before first second := by
  induction stable with
  | nil => exact List.pairwise_singleton _ _
  | @cons first rest below stable ih =>
      rw [placeOrdered]
      split
      · exact .cons (fun other member _ => follow other member) (.cons below stable)
      · next follows =>
          refine .cons ?_ (ih fun other member => follow other (List.mem_cons_of_mem _ member))
          intro other member leads
          rcases List.mem_cons.mp ((perm_placeOrdered precedes item rest).mem_iff.mp member) with
            rfl | later
          · exact absurd leads follows
          · exact below other later leads

/-- An arrangement is stable: of two items that may precede each other, the one that stood first
comes first. -/
theorem stable_arrange {before : α → α → Prop} {items : List α} (ordered : items.Pairwise before) :
    (arrange precedes items).Pairwise
      fun first second => precedes second first → before first second := by
  induction ordered with
  | nil => exact .nil
  | @cons first rest below _ ih =>
      exact stable_placeOrdered
        (fun other member => below other ((perm_arrange precedes rest).mem_iff.mp member)) ih

/-- Items that come in order stay as they stand. -/
theorem arrange_of_pairwise {items : List α}
    (ordered : items.Pairwise fun first second => precedes first second) :
    arrange precedes items = items := by
  induction ordered with
  | nil => rfl
  | @cons first rest below _ ih =>
      rw [arrange_cons, ih]
      cases rest with
      | nil => rfl
      | cons other others => exact if_pos (below other List.mem_cons_self)

/-- The items of an arranged list come in order. -/
theorem pairwise_arrange (total : ∀ first second, precedes first second || precedes second first)
    (transitive : ∀ {first second third}, precedes first second → precedes second third →
      precedes first third) (items : List α) :
    (arrange precedes items).Pairwise fun first second => precedes first second := by
  induction items with
  | nil => exact .nil
  | cons first rest ih => exact pairwise_placeOrdered total transitive first ih

end Arrange

namespace Text

theorem le_total (first second : Text) : le first second || le second first := by
  induction first generalizing second with
  | nil => rfl
  | cons point rest ih =>
      cases second with
      | nil => rfl
      | cons other others =>
          by_cases same : point = other
          · subst same
            simpa [le] using ih others
          · have differ : point.val ≠ other.val := fun equal => same (Fin.ext equal)
            rw [le, le, if_neg same, if_neg (Ne.symm same)]
            simp only [Bool.or_eq_true, decide_eq_true_eq]
            omega

theorem le_trans {first second third : Text} (left : le first second) (right : le second third) :
    le first third := by
  induction first generalizing second third with
  | nil => rfl
  | cons point rest ih =>
      cases second with
      | nil => cases left
      | cons other others =>
          cases third with
          | nil => cases right
          | cons last lasts =>
              rw [le] at left right ⊢
              split at left
              · next same =>
                  subst same
                  split at right
                  · next same =>
                      subst same
                      simpa using ih left right
                  · next differ =>
                      rw [if_neg differ]
                      exact right
              · next differ =>
                  simp only [decide_eq_true_eq] at left
                  split at right
                  · next same =>
                      subst same
                      rw [if_neg differ]
                      simpa using left
                  · simp only [decide_eq_true_eq] at right
                    have lower : point.val < last.val := Nat.lt_trans left right
                    rw [if_neg (fun same => by subst same; omega)]
                    simpa using lower

theorem le_antisymm {first second : Text} (left : le first second) (right : le second first) :
    first = second := by
  induction first generalizing second with
  | nil =>
      cases second with
      | nil => rfl
      | cons other others => cases right
  | cons point rest ih =>
      cases second with
      | nil => cases left
      | cons other others =>
          rw [le] at left right
          by_cases same : point = other
          · subst same
            rw [if_pos rfl] at left right
            rw [ih left right]
          · rw [if_neg same, decide_eq_true_eq] at left
            rw [if_neg (Ne.symm same), decide_eq_true_eq] at right
            omega

theorem perm_sorted (texts : List Text) : (sorted texts).Perm texts := perm_arrange le texts

/-- **Sorted texts come in ascending order.** -/
theorem pairwise_sorted (texts : List Text) :
    (sorted texts).Pairwise fun first second => le first second :=
  pairwise_arrange le_total le_trans texts

/-- Different texts have one ascending order, whatever order they are given in. -/
theorem sorted_eq_of_mem_iff {texts others : List Text} (distinct : texts.Nodup)
    (otherDistinct : others.Nodup) (same : ∀ text, text ∈ texts ↔ text ∈ others) :
    sorted texts = sorted others := by
  have order := (List.perm_ext_iff_of_nodup distinct otherDistinct).mpr same
  exact ((perm_sorted texts).trans (order.trans (perm_sorted others).symm)).eq_of_pairwise
    (fun _ _ _ _ => le_antisymm) (pairwise_sorted texts) (pairwise_sorted others)

end Text

end GovernedRecords

/-
  Stylebook.Proofs.Text.Lowercase

  Lower case of a piece of a text, compared with lower case of the piece alone. What
  stands around a piece decides the form of its capital sigmas and nothing else
  (`forall₂_lowerBetween`). So the piece stays a piece in lower case if its sigmas keep
  their forms (`SigmasKept`). Which texts keep them wherever they stand can be told from
  the texts alone (`SigmasSettled`), and no other text is always found
  (`sigmasSettled_iff_contains`): a cased letter before or behind it takes a form away
  from it that nothing in the larger text gives back.
-/

import Mathlib.Data.List.Forall2
import Stylebook.Text.Containment
import Stylebook.Text.Lowercase

namespace Stylebook.Text

/-! ## Neighbours of a sigma -/

/-- Whether a text has a character that is not passed over when the neighbours of a
    sigma are looked at. -/
def hasAnchor (cs : List Char) : Bool := cs.any fun c => !isCaseIgnorable c

theorem hasAnchor_cons (c : Char) (cs : List Char) :
    hasAnchor (c :: cs) = (!isCaseIgnorable c || hasAnchor cs) := List.any_cons

theorem hasAnchor_reverse (cs : List Char) : hasAnchor cs.reverse = hasAnchor cs :=
  List.any_reverse

/-- The look along a text goes on behind it only if nothing in it stops the look. -/
theorem meetsCased_append (xs ys : List Char) :
    meetsCased (xs ++ ys) = if hasAnchor xs then meetsCased xs else meetsCased ys := by
  induction xs with
  | nil => rfl
  | cons c xs ih =>
    rw [List.cons_append, meetsCased, meetsCased, hasAnchor_cons]
    cases hc : isCaseIgnorable c with
    | true => simpa using ih
    | false => simp

theorem hasAnchor_of_meetsCased {cs : List Char} (h : meetsCased cs = true) :
    hasAnchor cs = true := by
  induction cs with
  | nil => cases h
  | cons c cs ih =>
    rw [hasAnchor_cons]
    cases hc : isCaseIgnorable c with
    | false => rfl
    | true =>
      rw [meetsCased, hc] at h
      simpa using ih h

theorem meetsCased_of_not_hasAnchor {cs : List Char} (h : hasAnchor cs = false) :
    meetsCased cs = false := by
  refine Bool.eq_false_iff.2 fun hmet => ?_
  rw [hasAnchor_of_meetsCased hmet] at h
  cases h

/-- More text behind does not hide a cased character that was met. -/
theorem meetsCased_append_of_meetsCased {xs : List Char} (ys : List Char)
    (h : meetsCased xs = true) : meetsCased (xs ++ ys) = true := by
  rw [meetsCased_append, hasAnchor_of_meetsCased h, if_pos rfl, h]

/-! ## Lower case between two texts -/

/-- Lower case of a text that stands after `before` (last character first) and before
    `after`. -/
def lowerBetween (before after : List Char) : List Char → List Char
  | [] => []
  | c :: rest =>
    (if c = capitalSigma then [lowerSigma before (rest ++ after)] else lowerChar c)
      ++ lowerBetween (c :: before) after rest

theorem lowerAfter_append (before cs after : List Char) :
    lowerAfter before (cs ++ after)
      = lowerBetween before after cs ++ lowerAfter (cs.reverse ++ before) after := by
  induction cs generalizing before with
  | nil => rfl
  | cons c cs ih =>
    rw [List.cons_append, lowerAfter, lowerBetween, ih (c :: before)]
    simp

/-- With nothing behind it, a text is put into lower case as by itself. -/
theorem lowerBetween_nil_right (before cs : List Char) :
    lowerBetween before [] cs = lowerAfter before cs := by
  have h := lowerAfter_append before cs []
  rw [List.append_nil, lowerAfter, List.append_nil] at h
  exact h.symm

theorem lowerBetween_append (before after xs ys : List Char) :
    lowerBetween before after (xs ++ ys)
      = lowerBetween before (ys ++ after) xs ++ lowerBetween (xs.reverse ++ before) after ys := by
  induction xs generalizing before with
  | nil => rfl
  | cons c xs ih =>
    rw [List.cons_append, lowerBetween, lowerBetween, ih (c :: before)]
    simp

/-- Lower case of a text that is cut in three. -/
theorem lower_append_append (before piece after : List Char) :
    lower (before ++ piece ++ after)
      = lowerBetween [] (piece ++ after) before ++ lowerBetween before.reverse after piece
        ++ lowerAfter (piece.reverse ++ before.reverse) after := by
  rw [lower, List.append_assoc, lowerAfter_append, List.append_nil, lowerAfter_append,
    List.append_assoc]

/-- A text in lower case differs from one place to another only in its sigmas: what
    relates their forms relates the texts. -/
theorem forall₂_lowerBetween {R : Char → Char → Prop} (hrefl : ∀ c, R c c)
    {before before' after after' cs : List Char}
    (h : ∀ xs ys, cs = xs ++ capitalSigma :: ys →
      R (lowerSigma (xs.reverse ++ before) (ys ++ after))
        (lowerSigma (xs.reverse ++ before') (ys ++ after'))) :
    List.Forall₂ R (lowerBetween before after cs) (lowerBetween before' after' cs) := by
  induction cs generalizing before before' with
  | nil => exact .nil
  | cons c cs ih =>
    rw [lowerBetween, lowerBetween]
    refine List.rel_append ?_ (ih fun xs ys hcs => ?_)
    · -- The first character is looked at in two ways.
      split
      · next hc => exact .cons (h [] cs (by rw [hc, List.nil_append])) .nil
      · exact List.forall₂_same.2 fun d _ => hrefl d
    · have hform := h (c :: xs) ys (by rw [hcs, List.cons_append])
      simpa using hform

theorem length_lowerBetween (before before' after after' cs : List Char) :
    (lowerBetween before after cs).length = (lowerBetween before' after' cs).length :=
  (forall₂_lowerBetween (R := fun _ _ => True) (fun _ => trivial) fun _ _ _ => trivial).length_eq

/-! ## Pieces that keep their sigmas -/

/-- Every capital sigma of a piece takes the form between two texts that it takes in the
    piece alone. -/
def SigmasKept (before piece after : List Char) : Prop :=
  ∀ xs ys, piece = xs ++ capitalSigma :: ys →
    lowerSigma (xs.reverse ++ before.reverse) (ys ++ after) = lowerSigma xs.reverse ys

theorem lowerBetween_eq_lower_iff {before piece after : List Char} :
    lowerBetween before.reverse after piece = lower piece ↔ SigmasKept before piece after := by
  rw [lower, ← lowerBetween_nil_right]
  constructor
  · -- Both texts are cut in front of the sigma, at the same place.
    rintro h xs ys rfl
    rw [lowerBetween_append, lowerBetween_append] at h
    have hcut := (List.append_inj h (length_lowerBetween _ _ _ _ _)).2
    rw [lowerBetween, lowerBetween, if_pos rfl, if_pos rfl] at hcut
    simpa using (List.cons.inj hcut).1
  · intro h
    refine List.forall₂_eq_eq_eq ▸ forall₂_lowerBetween (fun _ => rfl) fun xs ys hpiece => ?_
    simpa using h xs ys hpiece

/-- A piece whose sigmas keep their forms stays a piece in lower case. -/
theorem contains_lower_of_sigmasKept {before piece after : List Char}
    (h : SigmasKept before piece after) :
    contains (lower piece) (lower (before ++ piece ++ after)) = true := by
  rw [lower_append_append, lowerBetween_eq_lower_iff.2 h]
  exact contains_iff.2 ⟨_, _, rfl⟩

/-! ## Texts that keep their sigmas everywhere -/

/-- The neighbours inside a text settle the form of each of its capital sigmas: before
    it, something stops the look for a cased character, or else a cased character behind
    it rules the final form out; and if there is a cased character before it, something
    behind it stops the look there. -/
def SigmasSettled (piece : List Char) : Prop :=
  ∀ xs ys, piece = xs ++ capitalSigma :: ys →
    (hasAnchor xs = true ∨ meetsCased ys = true) ∧
      (meetsCased xs.reverse = true → hasAnchor ys = true)

theorem SigmasSettled.sigmasKept {piece : List Char} (h : SigmasSettled piece)
    (before after : List Char) : SigmasKept before piece after := by
  intro xs ys hpiece
  obtain ⟨hleft, hright⟩ := h xs ys hpiece
  rw [lowerSigma, lowerSigma, meetsCased_append, meetsCased_append, hasAnchor_reverse]
  cases hys : meetsCased ys with
  | true =>
    -- Not final, whatever stands before.
    rw [hasAnchor_of_meetsCased hys]
    simp
  | false =>
    have hxs : hasAnchor xs = true := by simpa [hys] using hleft
    rw [hxs, if_pos rfl]
    cases hcased : meetsCased xs.reverse with
    | false => simp
    | true => rw [hright hcased, if_pos rfl]

/-- If one of two characters was replaced by the other at some places, there are fewer of
    it. -/
theorem eq_or_count_lt {x y : Char} (hxy : x ≠ y) {cs ds : List Char}
    (h : List.Forall₂ (fun c d => c = d ∨ c = x ∧ d = y) cs ds) :
    cs = ds ∨ cs.count y < ds.count y := by
  induction h with
  | nil => exact .inl rfl
  | @cons c d cs ds hcd _ ih =>
    rcases hcd with rfl | ⟨rfl, rfl⟩
    · rcases ih with rfl | hlt
      · exact .inl rfl
      · right
        rw [List.count_cons, List.count_cons]
        omega
    · have hle : cs.count d ≤ ds.count d := by
        rcases ih with rfl | hlt
        · exact Nat.le_refl _
        · exact Nat.le_of_lt hlt
      right
      rw [List.count_cons_of_ne hxy, List.count_cons_self]
      omega

/-- A piece is not longer in any character than the text that holds it. -/
theorem count_le_of_contains {needle hay : List Char} (h : contains needle hay = true)
    (c : Char) : needle.count c ≤ hay.count c := by
  obtain ⟨before, after, rfl⟩ := contains_iff.1 h
  rw [List.count_append, List.count_append]
  omega

/-- A piece that has lost one form of the sigma to the other is not found, unless what
    stands around it makes up for the loss. -/
theorem not_contains_lower {x y : Char} (hxy : x ≠ y) {before piece after : List Char}
    (hforms : List.Forall₂ (fun c d => c = d ∨ c = x ∧ d = y)
      (lowerBetween before.reverse after piece) (lower piece))
    (hkept : ¬ SigmasKept before piece after)
    (hbefore : (lowerBetween [] (piece ++ after) before).count y = 0)
    (hafter : (lowerAfter (piece.reverse ++ before.reverse) after).count y = 0) :
    contains (lower piece) (lower (before ++ piece ++ after)) = false := by
  have hfewer := (eq_or_count_lt hxy hforms).resolve_left
    fun heq => hkept (lowerBetween_eq_lower_iff.1 heq)
  refine Bool.eq_false_iff.2 fun hfound => ?_
  have hle := count_le_of_contains hfound y
  rw [lower_append_append, List.count_append, List.count_append, hbefore, hafter] at hle
  omega

/-- Behind a letter, a sigma that has nothing before it and no cased character behind it
    is final, and then the piece is not found. -/
theorem not_contains_of_letter_before {xs ys : List Char} (hxs : hasAnchor xs = false)
    (hys : meetsCased ys = false) :
    contains (lower (xs ++ capitalSigma :: ys))
      (lower (['a'] ++ (xs ++ capitalSigma :: ys) ++ [])) = false := by
  refine not_contains_lower (x := 'ς') (y := 'σ') (by decide) ?_ ?_ (by rfl) rfl
  · -- The letter makes sigmas final and takes the final form from none.
    rw [lower, ← lowerBetween_nil_right]
    refine forall₂_lowerBetween (fun c => .inl rfl) fun xs ys _ => ?_
    rw [lowerSigma, lowerSigma, List.append_nil, List.append_nil]
    cases hcased : meetsCased xs.reverse with
    | true => exact .inl (by rw [meetsCased_append_of_meetsCased _ hcased])
    | false =>
      rw [Bool.false_and, if_neg Bool.false_ne_true]
      split
      · exact .inr ⟨rfl, rfl⟩
      · exact .inl rfl
  · intro hkept
    have hform := hkept xs ys rfl
    have hcased : meetsCased (xs.reverse ++ ['a'].reverse) = true := by
      rw [meetsCased_append, hasAnchor_reverse, hxs]
      rfl
    have hnone : meetsCased xs.reverse = false :=
      meetsCased_of_not_hasAnchor (by rw [hasAnchor_reverse, hxs])
    rw [lowerSigma, lowerSigma, List.append_nil, hcased, hnone, hys] at hform
    exact absurd hform (by decide)

/-- In front of a letter, a sigma with a cased character before it and nothing behind it
    is not final, and then the piece is not found. -/
theorem not_contains_of_letter_after {xs ys : List Char} (hxs : meetsCased xs.reverse = true)
    (hys : hasAnchor ys = false) :
    contains (lower (xs ++ capitalSigma :: ys))
      (lower ([] ++ (xs ++ capitalSigma :: ys) ++ ['a'])) = false := by
  refine not_contains_lower (x := 'σ') (y := 'ς') (by decide) ?_ ?_ rfl (by rfl)
  · -- The letter takes the final form from sigmas and makes none final.
    rw [lower, ← lowerBetween_nil_right]
    refine forall₂_lowerBetween (fun c => .inl rfl) fun xs ys _ => ?_
    rw [lowerSigma, lowerSigma, List.reverse_nil, List.append_nil, List.append_nil]
    cases hcased : meetsCased ys with
    | true => exact .inl (by rw [meetsCased_append_of_meetsCased _ hcased])
    | false =>
      rw [Bool.not_false, Bool.and_true]
      cases meetsCased xs.reverse with
      | false => exact .inl (by rw [Bool.false_and])
      | true =>
        rw [Bool.true_and, if_pos rfl]
        split
        · exact .inl rfl
        · exact .inr ⟨rfl, rfl⟩
  · intro hkept
    have hform := hkept xs ys rfl
    have hcased : meetsCased (ys ++ ['a']) = true := by
      rw [meetsCased_append, hys]
      rfl
    rw [lowerSigma, lowerSigma, List.reverse_nil, List.append_nil, hxs, hcased,
      meetsCased_of_not_hasAnchor hys] at hform
    exact absurd hform (by decide)

/-- The texts that stay pieces in lower case wherever they stand are those whose sigmas
    are settled. -/
theorem sigmasSettled_iff_contains {piece : List Char} :
    SigmasSettled piece ↔
      ∀ before after, contains (lower piece) (lower (before ++ piece ++ after)) = true := by
  constructor
  · exact fun h before after => contains_lower_of_sigmasKept (h.sigmasKept before after)
  · rintro h xs ys rfl
    constructor
    · -- Otherwise a letter before the piece makes the sigma final.
      by_contra hsettled
      rw [not_or, Bool.not_eq_true, Bool.not_eq_true] at hsettled
      have hfound := h ['a'] []
      rw [not_contains_of_letter_before hsettled.1 hsettled.2] at hfound
      cases hfound
    · -- Otherwise a letter behind the piece keeps it from being final.
      intro hcased
      by_contra hsettled
      have hfound := h [] ['a']
      rw [not_contains_of_letter_after hcased (Bool.eq_false_iff.2 hsettled)] at hfound
      cases hfound

end Stylebook.Text

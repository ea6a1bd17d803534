/-
  Stylebook.Proofs.Text.Lowered

  Putting a text into lower case twice does no more than doing it once. What the mapping
  makes of a character it leaves alone (`lowerChar_of_mem_lowerChar`): the images of a run
  lie in no run, which is read off the tables run by run (`CaseRun.keepsClear`), and neither
  form of the small sigma is moved. So a text in lower case holds no capital sigma and
  nothing else that has a lower case, and it is its own lower case (`lower_lower`).
-/

import Stylebook.Text.Lowercase

namespace Stylebook.Text

/-! ## Images of a run -/

namespace CaseRun

/-- The image of the last code point of a run. -/
def lastImage (run : CaseRun) : Nat := run.image + (run.last - run.first)

/-- Whether rising runs hold no image of `run`. A run that starts behind the images is not
    met; one that ends before them holds none; and one that takes every other code point
    may hold the code points between them. -/
def keepsClear (run : CaseRun) : List CaseRun → Bool
  | [] => true
  | other :: rest =>
    if run.lastImage < other.first then true
    else if other.last < run.image then run.keepsClear rest
    else other.step == 2 && (run.step == 2 || run.first == run.last)
      && (run.image + other.first) % 2 == 1 && run.keepsClear rest

theorem image?_eq_some_iff {run : CaseRun} {c image : Nat} :
    run.image? c = some image ↔
      (run.first ≤ c ∧ c ≤ run.last ∧ (c - run.first) % run.step = 0) ∧
        image = run.image + (c - run.first) := by
  rw [image?]
  split
  · next h => simp [h, eq_comm]
  · next h => simp [h]

theorem image_bounds {run : CaseRun} {c image : Nat} (h : run.image? c = some image) :
    run.image ≤ image ∧ image ≤ run.lastImage := by
  obtain ⟨hc, rfl⟩ := image?_eq_some_iff.1 h
  rw [lastImage]
  omega

/-- In a run of every other code point, the images keep their parity. -/
theorem image_mod_two {run : CaseRun} {c image : Nat} (h : run.image? c = some image)
    (hstep : run.step = 2 ∨ run.first = run.last) : image % 2 = run.image % 2 := by
  obtain ⟨⟨hfirst, hlast, hmod⟩, rfl⟩ := image?_eq_some_iff.1 h
  rcases hstep with hstep | hone
  · rw [hstep] at hmod
    omega
  · omega

theorem caseImage?_eq_none {run : CaseRun} {runs : List CaseRun} {c image : Nat}
    (hclear : run.keepsClear runs = true) (h : run.image? c = some image) :
    caseImage? runs image = none := by
  have hbound := image_bounds h
  induction runs with
  | nil => rfl
  | cons other rest ih =>
    rw [keepsClear] at hclear
    rw [caseImage?]
    split at hclear
    · next hbehind => rw [if_pos (by omega)]
    · split at hclear
      · next hbefore => rw [if_neg (show ¬ image ≤ other.last by omega), ih hclear, ite_self]
      · -- The run holds every other code point, and the image is one of the others.
        simp only [Bool.and_eq_true, Bool.or_eq_true, beq_iff_eq] at hclear
        obtain ⟨⟨⟨htwo, hstep⟩, hparity⟩, hrest⟩ := hclear
        have hsame := image_mod_two h hstep
        have hnone : other.image? image = none := by
          rw [image?, htwo, if_neg (by omega)]
        rw [hnone, ih hrest, ite_self, ite_self]

end CaseRun

theorem exists_run_of_caseImage? {runs : List CaseRun} {c image : Nat}
    (h : caseImage? runs c = some image) : ∃ run ∈ runs, run.image? c = some image := by
  induction runs with
  | nil => cases h
  | cons run rest ih =>
    rw [caseImage?] at h
    split at h
    · cases h
    · split at h
      · exact ⟨run, List.mem_cons_self, h⟩
      · obtain ⟨other, hother, himage⟩ := ih h
        exact ⟨other, List.mem_cons_of_mem _ hother, himage⟩

/-! ## The table of lower case -/

/-- No image in the table has an image itself. -/
theorem keepsClear_lowerRuns : ∀ run ∈ lowerRuns, run.keepsClear lowerRuns = true := by
  decide +kernel

/-- The images in the table are characters, and the capital I with a dot is none of them. -/
theorem images_lowerRuns : ∀ run ∈ lowerRuns,
    (run.lastImage < 0xD800 ∨ 0xDFFF < run.image ∧ run.lastImage < 0x110000) ∧
      (run.lastImage < 0x130 ∨ 0x130 < run.image) := by
  decide +kernel

theorem lowerChar_of_caseImage?_eq_none {c : Char} (hdotted : c ≠ 'İ')
    (h : caseImage? lowerRuns c.toNat = none) : lowerChar c = [c] := by
  rw [lowerChar, if_neg hdotted, h]

/-- What the table maps to is the code point of a character. -/
theorem toNat_image {c image : Nat} (h : caseImage? lowerRuns c = some image) :
    (Char.ofNat image).toNat = image := by
  obtain ⟨run, hrun, himage⟩ := exists_run_of_caseImage? h
  have hvalid := (images_lowerRuns run hrun).1
  have hbound := CaseRun.image_bounds himage
  rw [Char.ofNat, dif_pos (show image.isValidChar by rw [Nat.isValidChar]; omega)]
  rfl

/-- What the table maps a code point to is left alone. -/
theorem lowerChar_image {c image : Nat} (h : caseImage? lowerRuns c = some image) :
    lowerChar (Char.ofNat image) = [Char.ofNat image] := by
  have hchar := toNat_image h
  obtain ⟨run, hrun, himage⟩ := exists_run_of_caseImage? h
  have hdotted := (images_lowerRuns run hrun).2
  have hbound := CaseRun.image_bounds himage
  refine lowerChar_of_caseImage?_eq_none ?_ ?_
  · intro heq
    rw [heq] at hchar
    have : 'İ'.toNat = 0x130 := rfl
    omega
  · rw [hchar]
    exact CaseRun.caseImage?_eq_none (keepsClear_lowerRuns run hrun) himage

/-- What a character becomes in lower case is left alone by the mapping. -/
theorem lowerChar_of_mem_lowerChar {c d : Char} (h : d ∈ lowerChar c) : lowerChar d = [d] := by
  by_cases hdotted : c = 'İ'
  · rw [lowerChar, if_pos hdotted, List.mem_cons, List.mem_singleton] at h
    rcases h with rfl | rfl
    · decide
    · decide
  · rw [lowerChar, if_neg hdotted] at h
    split at h
    · next image himage =>
      obtain rfl := List.mem_singleton.1 h
      exact lowerChar_image himage
    · next hnone =>
      obtain rfl := List.mem_singleton.1 h
      exact lowerChar_of_caseImage?_eq_none hdotted hnone

/-! ## Texts in lower case -/

theorem lowerChar_lowerSigma (before after : List Char) :
    lowerChar (lowerSigma before after) = [lowerSigma before after] := by
  rw [lowerSigma]
  split
  · decide
  · decide

theorem lowerChar_of_mem_lowerAfter {before cs : List Char} {d : Char}
    (h : d ∈ lowerAfter before cs) : lowerChar d = [d] := by
  induction cs generalizing before with
  | nil => cases h
  | cons c cs ih =>
    rw [lowerAfter, List.mem_append] at h
    rcases h with h | h
    · split at h
      · obtain rfl := List.mem_singleton.1 h
        exact lowerChar_lowerSigma before cs
      · exact lowerChar_of_mem_lowerChar h
    · exact ih h

/-- A text of characters that are left alone is left alone: there is no capital sigma among
    them. -/
theorem lowerAfter_eq_self {before cs : List Char} (h : ∀ c ∈ cs, lowerChar c = [c]) :
    lowerAfter before cs = cs := by
  induction cs generalizing before with
  | nil => rfl
  | cons c cs ih =>
    rw [List.forall_mem_cons] at h
    have hsigma : c ≠ capitalSigma := by
      rintro rfl
      exact absurd h.1 (by decide)
    rw [lowerAfter, if_neg hsigma, h.1, ih h.2]
    rfl

/-- Lower case of a text in lower case is that text. -/
theorem lower_lower (cs : List Char) : lower (lower cs) = lower cs :=
  lowerAfter_eq_self fun _ hd => lowerChar_of_mem_lowerAfter hd

theorem lowercase_lowercase (s : String) : lowercase (lowercase s) = lowercase s := by
  apply String.toList_inj.1
  rw [toList_lowercase, toList_lowercase, lower_lower]

end Stylebook.Text

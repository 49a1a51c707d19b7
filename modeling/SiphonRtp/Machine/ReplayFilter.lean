import Mathlib.Data.Set.Lattice

/-!
# Replay filters as sets of blocked indices

A replay filter over a growing packet index is, abstractly, the set of indices it would refuse.
`admitted` is its one transition: admitting an index blocks that index and everything a window width
or more below it. The set only grows (`subset_admitted`) and a smaller filter stays smaller
(`admitted_mono`), which is what a comparison of two receivers over the same traffic needs.

`history` is the filter a list of deliveries leaves behind, admitted or not: a delivery that is
already blocked changes nothing (`history_concat_of_mem`), because whatever it would block is
blocked already.
-/

set_option autoImplicit false

namespace SiphonRtp.Machine

variable {width : ℕ} {blocked other : Set ℕ} {index : ℕ}

/-- The filter after `index` was admitted: it blocks `index` and everything that has fallen out of
the window of `width` indices that ends at it. -/
def admitted (width : ℕ) (blocked : Set ℕ) (index : ℕ) : Set ℕ :=
  {i | i ∈ blocked ∨ i = index ∨ i + width ≤ index}

theorem mem_admitted {i : ℕ} :
    i ∈ admitted width blocked index ↔ i ∈ blocked ∨ i = index ∨ i + width ≤ index := Iff.rfl

theorem subset_admitted : blocked ⊆ admitted width blocked index := fun _ hi ↦ Or.inl hi

theorem mem_admitted_self : index ∈ admitted width blocked index := Or.inr (Or.inl rfl)

theorem admitted_mono (hsubset : blocked ⊆ other) :
    admitted width blocked index ⊆ admitted width other index := by
  rintro i (hi | hi)
  · exact Or.inl (hsubset hi)
  · exact Or.inr hi

/-- The least filter that has admitted `index` is contained in every filter that has. -/
theorem admitted_empty_subset : admitted width ∅ index ⊆ admitted width blocked index :=
  admitted_mono (Set.empty_subset blocked)

/-- The indices blocked after the deliveries of a list: each of them, and everything a window
behind one of them. -/
def history (width : ℕ) (deliveries : List ℕ) : Set ℕ :=
  {i | ∃ delivered ∈ deliveries, i = delivered ∨ i + width ≤ delivered}

theorem mem_history {deliveries : List ℕ} {i : ℕ} :
    i ∈ history width deliveries ↔
      ∃ delivered ∈ deliveries, i = delivered ∨ i + width ≤ delivered :=
  Iff.rfl

@[simp] theorem history_nil : history width [] = ∅ := by
  ext i
  simp [mem_history]

/-- Delivering one more index admits it to the filter, refused or not. -/
theorem history_concat (deliveries : List ℕ) :
    history width (deliveries ++ [index]) = admitted width (history width deliveries) index := by
  ext i
  simp only [mem_history, mem_admitted, List.mem_append, List.mem_singleton, or_and_right,
    exists_or, exists_eq_left]

/-- A blocked delivery blocks nothing new. -/
theorem history_concat_of_mem {deliveries : List ℕ} (hmem : index ∈ history width deliveries) :
    history width (deliveries ++ [index]) = history width deliveries := by
  rw [history_concat]
  refine Set.Subset.antisymm ?_ subset_admitted
  obtain ⟨delivered, hdelivered, hcovered⟩ := hmem
  rintro i (hi | rfl | hi)
  · exact hi
  · exact ⟨delivered, hdelivered, hcovered⟩
  · refine ⟨delivered, hdelivered, Or.inr ?_⟩
    omega

/-! ### The highest delivery -/

theorem exists_max?_of_mem {deliveries : List ℕ} (hmem : index ∈ deliveries) :
    ∃ highest, deliveries.max? = some highest ∧ index ≤ highest := by
  obtain ⟨highest, hhighest⟩ := Option.ne_none_iff_exists'.mp
    (mt List.max?_eq_none_iff.mp (List.ne_nil_of_mem hmem))
  exact ⟨highest, hhighest, (List.max?_eq_some_iff.mp hhighest).2 index hmem⟩

/-- What the deliveries of a list block: an index among them, or one a window behind the highest of
them. -/
theorem mem_history_iff_max {deliveries : List ℕ} :
    index ∈ history width deliveries ↔
      index ∈ deliveries ∨
        ∃ highest, deliveries.max? = some highest ∧ index + width ≤ highest := by
  constructor
  · rintro ⟨other, hother, rfl | hold⟩
    · exact Or.inl hother
    · obtain ⟨highest, hhighest, hle⟩ := exists_max?_of_mem hother
      exact Or.inr ⟨highest, hhighest, hold.trans hle⟩
  · rintro (hmem | ⟨highest, hhighest, hold⟩)
    · exact ⟨index, hmem, Or.inl rfl⟩
    · exact ⟨highest, (List.max?_eq_some_iff.mp hhighest).1, Or.inr hold⟩

theorem max?_concat_of_lt {deliveries : List ℕ}
    (habove : ∀ highest, deliveries.max? = some highest → highest < index) :
    (deliveries ++ [index]).max? = some index := by
  refine List.max?_eq_some_iff.mpr ⟨by simp, fun other hother ↦ ?_⟩
  rcases List.mem_append.mp hother with hold | hnew
  · obtain ⟨highest, hhighest, hle⟩ := exists_max?_of_mem hold
    exact hle.trans (habove highest hhighest).le
  · exact (List.mem_singleton.mp hnew).le

theorem max?_concat_of_le {deliveries : List ℕ} {highest : ℕ}
    (hhighest : deliveries.max? = some highest) (hle : index ≤ highest) :
    (deliveries ++ [index]).max? = some highest := by
  obtain ⟨hmem, hall⟩ := List.max?_eq_some_iff.mp hhighest
  refine List.max?_eq_some_iff.mpr ⟨List.mem_append_left _ hmem, fun other hother ↦ ?_⟩
  rcases List.mem_append.mp hother with hold | hnew
  · exact hall other hold
  · exact (List.mem_singleton.mp hnew).le.trans hle

end SiphonRtp.Machine

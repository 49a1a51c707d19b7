import Mathlib.Tactic.Linarith

/-!
# Checked 32-bit arithmetic

Code that may stop is an `Option`: `none` is an overflow of 32 bits (`i32`) or an index past the end
of a table. `Returns` says that code does not stop and what holds of its result; its rules follow
the code, one for a sequence (`Returns.bind`) and one for each way to stop (`Returns.i32`,
`Returns.lookup`).
-/

set_option autoImplicit false

namespace SiphonRtp.Machine.Checked

/-- A 32-bit result; `none` where it overflows. -/
def i32 (exact : ℤ) : Option ℤ := if -2 ^ 31 ≤ exact ∧ exact < 2 ^ 31 then some exact else none

variable {α β : Type}

/-- The code does not stop, and its result satisfies the condition. -/
def Returns (code : Option α) (post : α → Prop) : Prop := ∃ result, code = some result ∧ post result

namespace Returns

variable {code : Option α} {rest : α → Option β} {post : α → Prop} {goal : β → Prop}

theorem pure {result : α} (hpost : post result) : Returns (some result) post :=
  ⟨result, rfl, hpost⟩

theorem bind (hcode : Returns code post)
    (hrest : ∀ result, post result → Returns (rest result) goal) :
    Returns (code >>= rest) goal := by
  obtain ⟨result, rfl, hpost⟩ := hcode
  exact hrest result hpost

/-- The result may be named by the code it comes from. -/
theorem named (hcode : Returns code post) :
    Returns code fun result ↦ code = some result ∧ post result := by
  obtain ⟨result, hresult, hpost⟩ := hcode
  exact ⟨result, hresult, hresult, hpost⟩

/-- A sequence whose first part is in range. -/
theorem i32 {exact : ℤ} {rest : ℤ → Option β} (hlow : -2 ^ 31 ≤ exact) (hhigh : exact < 2 ^ 31)
    (hrest : Returns (rest exact) goal) : Returns (Checked.i32 exact >>= rest) goal := by
  rw [Checked.i32, if_pos ⟨hlow, hhigh⟩]
  exact hrest

theorem lookup {table : List α} {index : ℕ} (hindex : index < table.length)
    (hentries : ∀ entry ∈ table, post entry) : Returns table[index]? post :=
  ⟨table[index], List.getElem?_eq_getElem hindex, hentries _ (List.getElem_mem hindex)⟩

end Returns

/-! ### Products of 16-bit values -/

/-- A value of 16 bits. -/
def IsI16 (value : ℤ) : Prop := -32768 ≤ value ∧ value ≤ 32767

instance (value : ℤ) : Decidable (IsI16 value) := inferInstanceAs (Decidable (_ ∧ _))

theorem mul_bounds {bound x y : ℤ} (hlow : -bound ≤ x) (hhigh : x ≤ bound) (hy : IsI16 y) :
    -(bound * 32768) ≤ x * y ∧ x * y ≤ bound * 32768 := by
  obtain ⟨hy, hy'⟩ := hy
  constructor <;> nlinarith

end SiphonRtp.Machine.Checked

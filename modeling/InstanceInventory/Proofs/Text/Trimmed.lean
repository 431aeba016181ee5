import InstanceInventory.Text.Blank
import Mathlib.Data.List.TakeWhile

/-! # Trimmed texts

* `mem_trimChars`: trimming keeps every character that is not blank.
* `exists_dropEndWhile`: what is dropped at the end of a text.
* `isBlank_of_mem_take`: how far the blanks at the head of a text reach.
-/

namespace InstanceInventory.Text
set_option autoImplicit false
variable {p : Char → Bool} {c : Char} {cs : List Char}

/-! ## Characters that stay -/

theorem exists_dropEndWhile (p : Char → Bool) (cs : List Char) :
    ∃ ds, cs = dropEndWhile p cs ++ ds ∧ ∀ d ∈ ds, p d = true := by
  refine ⟨(cs.reverse.takeWhile p).reverse, ?_, fun d hd => ?_⟩
  · rw [dropEndWhile, ← List.reverse_append, List.takeWhile_append_dropWhile, List.reverse_reverse]
  · exact List.mem_takeWhile_imp (List.mem_reverse.1 hd)

theorem mem_dropWhile (hmem : c ∈ cs) (hc : p c = false) : c ∈ cs.dropWhile p := by
  rw [← cs.takeWhile_append_dropWhile (p := p), List.mem_append] at hmem
  refine hmem.resolve_left fun htake => ?_
  rw [List.mem_takeWhile_imp htake] at hc
  cases hc

theorem mem_dropEndWhile (hmem : c ∈ cs) (hc : p c = false) : c ∈ dropEndWhile p cs :=
  List.mem_reverse.2 (mem_dropWhile (List.mem_reverse.2 hmem) hc)

/-- Trimming keeps every character that is not blank. -/
theorem mem_trimChars (hmem : c ∈ cs) (hc : isBlank c = false) : c ∈ trimChars cs :=
  mem_dropEndWhile (mem_dropWhile hmem hc) hc

theorem trimChars_subset : trimChars cs ⊆ cs := by
  intro c hc
  have hmem := (List.dropWhile_sublist _).subset (List.mem_reverse.1 hc)
  exact (List.dropWhile_sublist _).subset (List.mem_reverse.1 hmem)

theorem dropWhile_of_not (h : ∀ c ∈ cs, p c = false) : cs.dropWhile p = cs := by
  cases cs with
  | nil => rfl
  | cons c cs => exact List.dropWhile_cons_of_neg (by simp [h c (List.mem_cons_self ..)])

theorem trimChars_of_not_blank (h : ∀ c ∈ cs, isBlank c = false) : trimChars cs = cs := by
  rw [trimChars, trimStart, dropWhile_of_not h, trimEnd, dropEndWhile,
    dropWhile_of_not fun c hc => h c (List.mem_reverse.1 hc), List.reverse_reverse]

theorem exists_of_trimChars (h : trimChars cs ≠ []) : ∃ c ∈ cs, isBlank c = false := by
  by_contra hnone
  have hblank : ∀ c ∈ cs, isBlank c = true := by
    intro c hc
    by_contra hb
    exact hnone ⟨c, hc, by simpa using hb⟩
  refine h ?_
  rw [trimChars, trimStart, List.dropWhile_eq_nil_iff.2 hblank]
  rfl

/-! ## Blanks at the head -/

/-- As many characters as trimming drops at the head of a text are blank. -/
theorem isBlank_of_mem_take {n : Nat} (hn : n ≤ cs.length - (trimStart cs).length)
    (hmem : c ∈ cs.take n) : isBlank c = true := by
  have hlength : (cs.takeWhile isBlank).length = cs.length - (trimStart cs).length := by
    have hsplit := congrArg List.length (cs.takeWhile_append_dropWhile (p := isBlank))
    rw [List.length_append] at hsplit
    rw [trimStart]
    omega
  rw [← cs.takeWhile_append_dropWhile (p := isBlank),
    List.take_append_of_le_length (hlength ▸ hn)] at hmem
  exact List.mem_takeWhile_imp (List.mem_of_mem_take hmem)

end InstanceInventory.Text

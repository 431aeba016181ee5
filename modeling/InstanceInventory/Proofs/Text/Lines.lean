import InstanceInventory.Text.Blank
import InstanceInventory.Text.Split

/-! # Lines of a text

* `lineChars_append_newline`: a newline sets lines apart.
* `joinLines_lines`: the lines of a text make up the text.
* `lastLine`: the last line of a text, read from its end.
* `unifyNewlines_eq_self_iff`: unified line endings change nothing but carriage returns.
* `fromUTF8?_eq_some_iff`: the bytes that a text is decoded from.
-/

namespace InstanceInventory.Text
set_option autoImplicit false

/-! ## Splitting and joining -/

theorem splitFrom_eq (p : Char → Bool) (piece cs : List Char) :
    splitFrom p piece cs = cs.splitOnPPrepend p piece := by
  induction cs generalizing piece with
  | nil => rfl
  | cons c cs ih =>
    rw [splitFrom, List.splitOnPPrepend_cons_eq_if, ih, ih]
    rfl

theorem subset_of_mem_splitFrom {p : Char → Bool} {piece cs l : List Char}
    (h : l ∈ splitFrom p piece cs) : l ⊆ piece ++ cs := by
  induction cs generalizing piece with
  | nil =>
    rw [List.mem_singleton.1 h]
    simp
  | cons c cs ih =>
    unfold splitFrom at h
    split at h
    · rcases List.mem_cons.1 h with rfl | h
      · simp
      · intro d hd
        have hmem := ih h hd
        simp only [List.nil_append] at hmem
        simp [hmem]
    · intro d hd
      have hmem := ih h hd
      simp only [List.cons_append, List.mem_cons, List.mem_append] at hmem ⊢
      exact or_left_comm.1 hmem

/-- The characters of a line are characters of the text. -/
theorem subset_of_mem_lineChars {cs l : List Char} (h : l ∈ lineChars cs) : l ⊆ cs :=
  subset_of_mem_splitFrom h

theorem lineChars_eq (cs : List Char) : lineChars cs = cs.splitOn '\n' :=
  splitFrom_eq (· == '\n') [] cs

theorem lineChars_append_newline (cs ds : List Char) :
    lineChars (cs ++ '\n' :: ds) = lineChars cs ++ lineChars ds := by
  rw [lineChars_eq, lineChars_eq, lineChars_eq, List.splitOn_append_cons_self]

theorem lineChars_of_not_mem {cs : List Char} (h : '\n' ∉ cs) : lineChars cs = [cs] := by
  rw [lineChars_eq, List.splitOn_eq_singleton h]

theorem lineChars_cons_newline {l : List Char} (h : '\n' ∉ l) (cs : List Char) :
    lineChars (l ++ '\n' :: cs) = l :: lineChars cs := by
  rw [lineChars_append_newline, lineChars_of_not_mem h, List.singleton_append]

/-- The characters of lines, each closed by a newline. -/
def closedChars (ls : List (List Char)) : List Char :=
  ls.flatMap fun l => l ++ ['\n']

@[simp] theorem closedChars_nil : closedChars [] = [] := rfl

theorem closedChars_cons (l : List Char) (ls : List (List Char)) :
    closedChars (l :: ls) = l ++ '\n' :: closedChars ls := by
  simp [closedChars]

theorem closedChars_append (ls ms : List (List Char)) :
    closedChars (ls ++ ms) = closedChars ls ++ closedChars ms :=
  List.flatMap_append

theorem exists_closedChars_newline {ls : List (List Char)} (h : ls ≠ []) :
    ∃ cs, closedChars ls = cs ++ ['\n'] := by
  refine ⟨closedChars ls.dropLast ++ ls.getLast h, ?_⟩
  conv => lhs; rw [← List.dropLast_concat_getLast h]
  simp [closedChars]

/-- Lines, each closed by a newline, are the first lines of a text. -/
theorem lineChars_closed {ls : List (List Char)} (h : ∀ l ∈ ls, '\n' ∉ l) (cs : List Char) :
    lineChars (closedChars ls ++ cs) = ls ++ lineChars cs := by
  induction ls with
  | nil => rfl
  | cons l ls ih =>
    rw [closedChars_cons, List.append_assoc, List.cons_append,
      lineChars_cons_newline (h l (List.mem_cons_self ..)),
      ih fun m hm => h m (List.mem_cons_of_mem l hm), List.cons_append]

theorem count_closedChars {ls : List (List Char)} (h : ∀ l ∈ ls, '\n' ∉ l) :
    (closedChars ls).count '\n' = ls.length := by
  induction ls with
  | nil => rfl
  | cons l ls ih =>
    rw [closedChars_cons, List.count_append, List.count_cons_self,
      List.count_eq_zero_of_not_mem (h l (List.mem_cons_self ..)),
      ih fun m hm => h m (List.mem_cons_of_mem l hm), List.length_cons, Nat.zero_add]

theorem intercalate_lineChars (cs : List Char) : ['\n'].intercalate (lineChars cs) = cs := by
  rw [lineChars_eq, List.intercalate_splitOn]

/-- Joined lines begin with the first of them, each closed by a newline, and with the next line. -/
theorem exists_intercalate (ls : List (List Char)) (l : List Char) (ms : List (List Char)) :
    ∃ rest, ['\n'].intercalate (ls ++ l :: ms) = closedChars ls ++ (l ++ rest) := by
  induction ls with
  | nil =>
    cases ms with
    | nil => exact ⟨[], by simp⟩
    | cons m ms => exact ⟨['\n'] ++ ['\n'].intercalate (m :: ms), by simp⟩
  | cons k ls ih =>
    obtain ⟨rest, hrest⟩ := ih
    refine ⟨rest, ?_⟩
    rw [List.cons_append, List.intercalate_cons_of_ne_nil (by simp), hrest, closedChars_cons]
    simp

theorem joinLines_ofList (ls : List (List Char)) :
    joinLines (ls.map String.ofList) = String.ofList (['\n'].intercalate ls) := by
  apply String.toList_injective
  rw [joinLines, String.toList_intercalate, List.map_map, String.toList_ofList]
  have e : String.toList ∘ String.ofList = id := funext fun cs => String.toList_ofList
  rw [e, List.map_id, String.toList_ofList]

/-- The lines of a text make up the text. -/
theorem joinLines_lines (s : String) : joinLines (lines s) = s := by
  rw [lines, joinLines_ofList, intercalate_lineChars, String.ofList_toList]

theorem length_lineChars (cs : List Char) : (lineChars cs).length = cs.count '\n' + 1 := by
  rw [lineChars_eq]
  induction cs with
  | nil => rfl
  | cons c cs ih =>
    rw [List.splitOn_cons_eq_if_modifyHead]
    by_cases hc : c = '\n'
    · simp [hc, ih]
    · simp [hc, ih]

/-- A text begins with its first line. -/
theorem exists_lineChars_cons {line : List Char} (h : '\n' ∉ line) (rest : List Char) :
    ∃ more ls, lineChars (line ++ rest) = (line ++ more) :: ls := by
  simp only [lineChars_eq]
  induction line with
  | nil => exact List.exists_cons_of_ne_nil (List.splitOn_ne_nil _ _)
  | cons c line ih =>
    obtain ⟨hc, hline⟩ := List.ne_and_not_mem_of_not_mem_cons h
    obtain ⟨more, ls, hsplit⟩ := ih hline
    refine ⟨more, ls, ?_⟩
    rw [List.cons_append, List.splitOn_cons_eq_if_modifyHead, hsplit]
    simp [hc.symm]

/-- The text after a newline begins a line. -/
theorem exists_line_after {line : List Char} (h : '\n' ∉ line) (cs rest : List Char) :
    ∃ more, (lineChars (cs ++ '\n' :: (line ++ rest)))[(cs ++ ['\n']).count '\n']? =
      some (line ++ more) := by
  obtain ⟨more, ls, hfirst⟩ := exists_lineChars_cons h rest
  have hcount : (cs ++ ['\n']).count '\n' = (lineChars cs).length := by
    rw [length_lineChars, List.count_append, List.count_singleton_self]
  refine ⟨more, ?_⟩
  rw [hcount, lineChars_append_newline, List.getElem?_append_right (Nat.le_refl _), Nat.sub_self,
    hfirst]
  rfl

/-! ## The last line -/

/-- The characters of the last line of a text, from the last to the first. -/
def lastLine (cs : List Char) : List Char :=
  cs.reverse.takeWhile (· != '\n')

theorem lastLine_append_newline (cs : List Char) : lastLine (cs ++ ['\n']) = [] := by
  simp [lastLine]

theorem lastLine_append {cs ds : List Char} (h : '\n' ∉ ds) :
    lastLine (cs ++ ds) = ds.reverse ++ lastLine cs := by
  unfold lastLine
  rw [List.reverse_append, List.takeWhile_append_of_pos]
  intro d hd
  rw [bne_iff_ne]
  rintro rfl
  exact h (List.mem_reverse.1 hd)

theorem newline_not_mem_lastLine (cs : List Char) : '\n' ∉ lastLine cs := by
  intro h
  have hall := List.all_takeWhile (p := (· != '\n')) (l := cs.reverse)
  simpa using List.all_eq_true.1 hall _ h

theorem exists_lineChars_lastLine (cs : List Char) :
    ∃ ls, lineChars cs = ls ++ [(lastLine cs).reverse] := by
  have hline : '\n' ∉ (lastLine cs).reverse := fun h =>
    newline_not_mem_lastLine cs (List.mem_reverse.1 h)
  have hsplit : (cs.reverse.dropWhile (· != '\n')).reverse ++ (lastLine cs).reverse = cs := by
    rw [lastLine, ← List.reverse_append, List.takeWhile_append_dropWhile, List.reverse_reverse]
  cases hdrop : cs.reverse.dropWhile (· != '\n') with
  | nil =>
    rw [hdrop, List.reverse_nil, List.nil_append] at hsplit
    refine ⟨[], ?_⟩
    conv => lhs; rw [← hsplit]
    rw [lineChars_of_not_mem hline, List.nil_append]
  | cons c ds =>
    have hc : c = '\n' := by
      have := List.head_dropWhile_not (p := (· != '\n')) (l := cs.reverse) (by simp [hdrop])
      simpa [hdrop] using this
    subst hc
    rw [hdrop, List.reverse_cons, List.append_assoc, List.singleton_append] at hsplit
    refine ⟨lineChars ds.reverse, ?_⟩
    conv => lhs; rw [← hsplit]
    rw [lineChars_append_newline, lineChars_of_not_mem hline]

/-! ## Line endings -/

theorem not_mem_unifyNewlineChars (cs : List Char) : '\r' ∉ unifyNewlineChars cs := by
  fun_induction unifyNewlineChars cs with
  | case1 => simp
  | case2 cs ih => simpa using ih
  | case3 c cs _ ih =>
    by_cases hc : c = '\r'
    · simpa [hc] using ih
    · simpa [hc, eq_comm] using ih

/-- Only a text without carriage returns stays as it is when its line endings are unified. -/
theorem unifyNewlineChars_eq_self_iff (cs : List Char) :
    unifyNewlineChars cs = cs ↔ '\r' ∉ cs := by
  constructor
  · intro h
    rw [← h]
    exact not_mem_unifyNewlineChars cs
  · intro h
    fun_induction unifyNewlineChars cs with
    | case1 => rfl
    | case2 cs ih => simp at h
    | case3 c cs _ ih =>
      obtain ⟨hc, hcs⟩ := List.ne_and_not_mem_of_not_mem_cons h
      rw [if_neg hc.symm, ih hcs]

theorem unifyNewlines_eq_self_iff (s : String) : unifyNewlines s = s ↔ '\r' ∉ s.toList := by
  rw [← unifyNewlineChars_eq_self_iff, unifyNewlines]
  constructor
  · intro h
    have h' := congrArg String.toList h
    rwa [String.toList_ofList] at h'
  · intro h
    rw [h, String.ofList_toList]

/-- The bytes that decode to a text are those that the text is written with. -/
theorem fromUTF8?_eq_some_iff (bytes : ByteArray) (s : String) :
    String.fromUTF8? bytes = some s ↔ s.toUTF8 = bytes := by
  unfold String.fromUTF8?
  constructor
  · intro h
    split at h
    · obtain rfl := Option.some.inj h
      rfl
    · cases h
  · rintro rfl
    exact dif_pos s.isValidUTF8

end InstanceInventory.Text

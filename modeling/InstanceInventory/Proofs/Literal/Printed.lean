import InstanceInventory.Proofs.Literal.Rendering

/-! # Printed characters

* `IsPrinted`: characters without control characters other than newlines.
* `printed_valueChars`: values are written with such characters only.
-/

namespace InstanceInventory.Literal
set_option autoImplicit false

/-- Characters without control characters other than newlines. -/
def IsPrinted (cs : List Char) : Prop :=
  ∀ c ∈ cs, c = '\n' ∨ 0x20 ≤ c.toNat

instance (cs : List Char) : Decidable (IsPrinted cs) :=
  List.decidableBAll _ cs

/-! ## Parts -/

theorem IsPrinted.return_not_mem {cs : List Char} (h : IsPrinted cs) : '\r' ∉ cs := by
  intro hmem
  rcases h _ hmem with h | h
  · exact absurd h (by decide)
  · exact absurd h (by decide)

theorem IsPrinted.append {cs ds : List Char} (hc : IsPrinted cs) (hd : IsPrinted ds) :
    IsPrinted (cs ++ ds) :=
  List.forall_mem_append.2 ⟨hc, hd⟩

theorem IsPrinted.cons {c : Char} {cs : List Char} (hc : c = '\n' ∨ 0x20 ≤ c.toNat)
    (h : IsPrinted cs) : IsPrinted (c :: cs) :=
  List.forall_mem_cons.2 ⟨hc, h⟩

theorem IsPrinted.of_subset {cs ds : List Char} (h : IsPrinted ds) (hsub : cs ⊆ ds) :
    IsPrinted cs := fun c hc => h c (hsub hc)

theorem printed_replicate {c : Char} (h : 0x20 ≤ c.toNat) (n : Nat) :
    IsPrinted (List.replicate n c) := by
  intro d hd
  rw [List.eq_of_mem_replicate hd]
  exact .inr h

theorem printed_spaces (n : Nat) : IsPrinted (List.replicate n ' ') :=
  printed_replicate (by decide) n

theorem printed_newLine (level : Int) : IsPrinted ('\n' :: indent level) :=
  .cons (.inl rfl) (printed_spaces _)

theorem IsPrinted.intercalate {sep : List Char} {ls : List (List Char)} (hsep : IsPrinted sep)
    (h : ∀ l ∈ ls, IsPrinted l) : IsPrinted (sep.intercalate ls) := by
  induction ls with
  | nil => exact fun _ hc => nomatch hc
  | cons l ls ih =>
    have hl := h l (List.mem_cons_self ..)
    have hls := ih fun m hm => h m (List.mem_cons_of_mem l hm)
    cases ls with
    | nil => simpa using hl
    | cons m ls =>
      rw [List.intercalate_cons_cons]
      exact (hl.append hsep).append hls

theorem printed_stringChars (s : String) : IsPrinted (stringChars s) :=
  fun c hc => .inr (visible_stringChars s c hc)

theorem printed_digits (n : Nat) : IsPrinted (Nat.toDigits 10 n) := by
  intro c hc
  have hdigit := isDigit_of_mem_toDigits c hc
  rw [Char.isDigit, Bool.and_eq_true, decide_eq_true_eq, ge_iff_le, UInt32.le_iff_toNat_le]
    at hdigit
  exact .inr (Nat.le_trans (by decide) hdigit.1)

theorem printed_integerChars (n : Int) : IsPrinted (integerChars n) := by
  unfold integerChars
  split
  · exact .cons (.inr (by decide)) (printed_digits _)
  · exact printed_digits _

/-! ## Doubles -/

theorem printed_zeros (n : Nat) : IsPrinted (List.replicate n '0') :=
  printed_replicate (by decide) n

theorem printed_withSign (negative : Bool) {cs : List Char} (h : IsPrinted cs) :
    IsPrinted (Double.withSign negative cs) := by
  unfold Double.withSign
  split
  · exact .cons (.inr (by decide)) h
  · exact h

theorem printed_positional {digits whole : List Char} (hdigits : IsPrinted digits)
    (hwhole : IsPrinted whole) (place : Int) : IsPrinted (Double.positional digits place whole) := by
  unfold Double.positional
  split_ifs
  · exact .cons (.inr (by decide)) (.cons (.inr (by decide)) ((printed_zeros _).append hdigits))
  · exact (hdigits.append (printed_zeros _)).append hwhole
  · exact (hdigits.of_subset (List.take_subset ..)).append
      (.cons (.inr (by decide)) (hdigits.of_subset (List.drop_subset ..)))

theorem printed_scientific {digits : List Char} (hdigits : IsPrinted digits) (place : Int) :
    IsPrinted (Double.scientific digits place) := by
  unfold Double.scientific Double.exponentText
  refine .append ?_ (.cons (.inr (by decide)) (.cons ?_ ?_))
  · split
    · next d e es =>
      obtain ⟨hd, hes⟩ := List.forall_mem_cons.1 hdigits
      exact .cons hd (.cons (.inr (by decide)) hes)
    · exact hdigits
  · split
    · exact .inr (by decide)
    · exact .inr (by decide)
  · split
    · exact .cons (.inr (by decide)) (printed_digits _)
    · exact printed_digits _

/-- A double is written without control characters. -/
theorem printed_double (d : Double) : IsPrinted d.text.toList := by
  unfold Double.text
  split
  · exact (by decide : IsPrinted "nan".toList)
  · rw [String.toList_ofList]
    exact printed_withSign _ (by decide : IsPrinted "inf".toList)
  · split
    · rw [String.toList_ofList]
      exact printed_withSign _ (by decide : IsPrinted "0.0".toList)
    · have hdigits : ∀ d : Decimal, IsPrinted d.significant := fun d =>
        (printed_digits d.digits).of_subset fun c hc => by
          rw [Decimal.significant, List.mem_reverse] at hc
          exact List.mem_reverse.1 ((List.dropWhile_sublist _).subset hc)
      dsimp only
      rw [String.toList_ofList]
      refine printed_withSign _ ?_
      split
      · exact printed_positional (hdigits _) (by decide) _
      · exact printed_scientific (hdigits _) _

/-! ## Keys -/

theorem isNameChar_bound {c : Char} (h : isNameChar c = true) : 0x20 ≤ c.toNat := by
  simp only [isNameChar, Bool.or_eq_true, Bool.and_eq_true, decide_eq_true_eq, beq_iff_eq,
    Char.le_def, UInt32.le_iff_toNat_le] at h
  rcases h with (h | h) | rfl
  · have := isNameStart_bounds h
    omega
  · exact Nat.le_trans (by decide) h.1
  · decide

theorem printed_keyChars (key : String) : IsPrinted (keyChars key) := by
  unfold keyChars
  split
  · next hbare =>
    unfold isBareKey at hbare
    split at hbare
    · cases hbare
    · next c cs hcs =>
      simp only [Bool.and_eq_true, List.all_eq_true] at hbare
      have hstart := isNameStart_bounds hbare.1.1
      rw [hcs]
      exact .cons (.inr (by omega)) fun d hd => .inr (isNameChar_bound (hbare.1.2 d hd).1)
  · exact printed_stringChars key

/-! ## Layout -/

theorem printed_line {r : Row} (hkey : IsPrinted r.key) (hvalue : IsPrinted r.value)
    (level : Int) (width : Nat) : IsPrinted (r.line level width) := by
  have hsign : IsPrinted [' ', '=', ' '] := by decide
  exact ((((printed_spaces _).append hkey).append (printed_spaces _)).append hsign).append hvalue

theorem printed_rowLines {rs : List Row} (h : ∀ r ∈ rs, IsPrinted r.key ∧ IsPrinted r.value)
    (level : Int) : ∀ l ∈ rowLines level [] rs, IsPrinted l := by
  have hlines := rowLines_forall₂ level [] rs
  generalize rowLines level [] rs = ls at hlines
  rw [List.nil_append] at hlines
  induction hlines with
  | nil => exact fun _ hl => nomatch hl
  | @cons r l rs ls hrow _ ih =>
    obtain ⟨width, rfl⟩ := hrow
    obtain ⟨hr, hrs⟩ := List.forall_mem_cons.1 h
    exact List.forall_mem_cons.2 ⟨printed_line hr.1 hr.2 level width, ih hrs⟩

/-! ## Values -/

mutual

/-- Values are written without control characters other than newlines. -/
theorem printed_valueChars (level : Int) (v : Value) : IsPrinted (valueChars level v) := by
  cases v with
  | null => exact (by decide : IsPrinted "null".toList)
  | bool b =>
    cases b with
    | true => exact (by decide : IsPrinted "true".toList)
    | false => exact (by decide : IsPrinted "false".toList)
  | number n =>
    cases n with
    | int n => exact printed_integerChars n
    | real d => exact printed_double d
  | text s => exact printed_stringChars s
  | list items =>
    unfold valueChars
    split
    · decide
    · split
      · have hitems := IsPrinted.intercalate (by decide : IsPrinted ['\n'])
          (printed_tallItems (level + 1) items)
        exact .cons (by decide) (.cons (by decide)
          ((hitems.append (printed_newLine level)).append (by decide)))
      · exact .cons (by decide) (.append (.intercalate (by decide)
          (printed_flatItems level items)) (by decide))
  | object fields =>
    unfold valueChars
    split
    · decide
    · have hlines := IsPrinted.intercalate (by decide : IsPrinted ['\n'])
        (printed_rowLines (printed_rows (level + 1) fields) (level + 1))
      exact .cons (by decide) (.cons (by decide)
        ((hlines.append (printed_newLine level)).append (by decide)))

theorem printed_flatItems (level : Int) (vs : List Value) :
    ∀ l ∈ flatItems level vs, IsPrinted l := by
  cases vs with
  | nil => exact fun _ hl => nomatch hl
  | cons v vs =>
    exact List.forall_mem_cons.2 ⟨printed_valueChars level v,
      printed_flatItems level vs⟩

theorem printed_tallItems (level : Int) (vs : List Value) :
    ∀ l ∈ tallItems level vs, IsPrinted l := by
  cases vs with
  | nil => exact fun _ hl => nomatch hl
  | cons v vs =>
    exact List.forall_mem_cons.2 ⟨((printed_spaces _).append
      (printed_valueChars level v)).append (by decide), printed_tallItems level vs⟩

theorem printed_rows (level : Int) (fs : Fields) :
    ∀ r ∈ rows level fs, IsPrinted r.key ∧ IsPrinted r.value := by
  cases fs with
  | nil => exact fun _ hr => nomatch hr
  | cons f fs =>
    obtain ⟨k, v⟩ := f
    exact List.forall_mem_cons.2 ⟨⟨printed_keyChars k, printed_valueChars level v⟩,
      printed_rows level fs⟩

end

/-- An entry is written without control characters other than newlines. -/
theorem printed_renderEntry (level : Int) (key : String) (v : Value) :
    IsPrinted (renderEntry level key v).toList := by
  rw [renderEntry, String.toList_ofList]
  exact (((printed_spaces _).append (printed_keyChars key)).append (by decide)).append
    (printed_valueChars level v)

end InstanceInventory.Literal

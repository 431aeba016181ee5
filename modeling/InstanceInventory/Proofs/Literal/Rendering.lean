import InstanceInventory.Proofs.Literal.Atom
import InstanceInventory.Proofs.Literal.Grammar
import Mathlib.Data.List.Forall2

/-! # Rendered literals

* `Reads cs after P`: written before the characters `after`, the characters `cs` are read as tokens
  with the property `P`, wherever they stand.
* `Value.IsPlain`: the values that have an exact text: their numbers are integers and the keys of
  an object are distinct.
* `Writes cs after P`: the same, and every integer among the tokens has the digits it takes.
* `writes_valueChars`: the text of a plain value is read as tokens that write the value.
* `parseEntry_renderEntry`: reading an entry undoes writing it.
-/

namespace InstanceInventory
set_option autoImplicit false

namespace Value

mutual

/-- A value whose numbers are integers and whose objects have distinct keys. -/
def IsPlain : Value → Prop
  | .number (.real _) => False
  | .list vs => ArePlain vs
  | .object fs => (fs.map Prod.fst).Nodup ∧ FieldsPlain fs
  | _ => True

/-- Values that are all plain. -/
def ArePlain : List Value → Prop
  | [] => True
  | v :: vs => IsPlain v ∧ ArePlain vs

/-- Fields whose values are all plain. -/
def FieldsPlain : Fields → Prop
  | [] => True
  | (_, v) :: fs => IsPlain v ∧ FieldsPlain fs

end

end Value

namespace Literal

/-! ## Reading characters with a property -/

/-- Written before `after`, the characters are read as tokens with a property. -/
def Reads (cs after : List Char) (P : List Token → Prop) : Prop :=
  ∃ ps, charsOf ps = cs ∧ Lexed after ps ∧ ∀ place line, P (placed place line ps)

theorem Reads.imp {cs after : List Char} {P Q : List Token → Prop} (h : Reads cs after P)
    (hpq : ∀ ts, P ts → Q ts) : Reads cs after Q := by
  obtain ⟨ps, hchars, hlexed, hp⟩ := h
  exact ⟨ps, hchars, hlexed, fun place line => hpq _ (hp place line)⟩

theorem Reads.append {cs ds after : List Char} {P Q R : List Token → Prop}
    (hp : Reads cs (ds ++ after) P) (hq : Reads ds after Q)
    (hr : ∀ ts us, P ts → Q us → R (ts ++ us)) : Reads (cs ++ ds) after R := by
  obtain ⟨ps, rfl, hlexed, hp⟩ := hp
  obtain ⟨qs, rfl, hlexed', hq⟩ := hq
  refine ⟨ps ++ qs, charsOf_append ps qs, hlexed.append hlexed', fun place line => ?_⟩
  rw [placed_append]
  exact hr _ _ (hp place line) (hq _ _)

theorem Reads.gap {c : Char} {ds after : List Char} {Q : List Token → Prop} (hc : isGap c = true)
    (hq : Reads ds after Q) : Reads (c :: ds) after Q := by
  obtain ⟨qs, rfl, hlexed, hq⟩ := hq
  exact ⟨.gap c :: qs, rfl, .gap hc hlexed, fun place line => hq _ _⟩

theorem Reads.token {k : Token.Kind} (c : Char) (cs : List Char) {ds after : List Char}
    {Q R : List Token → Prop} (solid : isGap c = false)
    (read : ∀ line, lexeme line c (cs ++ (ds ++ after)) = .ok (k, cs.length))
    (hq : Reads ds after Q)
    (hr : ∀ t us, t.kind = k → t.text = String.ofList (c :: cs) → Q us → R (t :: us)) :
    Reads (c :: (cs ++ ds)) after R := by
  obtain ⟨qs, rfl, hlexed, hq⟩ := hq
  exact ⟨.token k c cs :: qs, rfl, .token solid read hlexed,
    fun place line => hr _ _ rfl rfl (hq _ _)⟩

theorem Reads.nil {after : List Char} {P : List Token → Prop} (hp : P []) : Reads [] after P :=
  ⟨[], rfl, .nil, fun _ _ => hp⟩

/-! ## Writing characters whose integers are exact -/

/-- A token that is no integer, or one that is written with the digits it takes and no others. -/
def Token.IsExact (t : Token) : Prop :=
  ∀ n : Int, t.kind = .number (.int n) → t.text = String.ofList (Nat.toDigits 10 n.natAbs)

/-- Written before `after`, the characters are read as tokens with a property, whose integers are
exact. -/
def Writes (cs after : List Char) (P : List Token → Prop) : Prop :=
  Reads cs after fun ts => P ts ∧ ∀ t ∈ ts, t.IsExact

theorem Writes.reads {cs after : List Char} {P : List Token → Prop} (h : Writes cs after P) :
    Reads cs after P :=
  h.imp fun _ hts => hts.1

theorem Writes.append {cs ds after : List Char} {P Q R : List Token → Prop}
    (hp : Writes cs (ds ++ after) P) (hq : Writes ds after Q)
    (hr : ∀ ts us, P ts → Q us → R (ts ++ us)) : Writes (cs ++ ds) after R :=
  Reads.append hp hq fun ts us hts hus =>
    ⟨hr ts us hts.1 hus.1, List.forall_mem_append.2 ⟨hts.2, hus.2⟩⟩

theorem Writes.gap {c : Char} {ds after : List Char} {Q : List Token → Prop} (hc : isGap c = true)
    (hq : Writes ds after Q) : Writes (c :: ds) after Q :=
  Reads.gap hc hq

theorem Writes.spaces (n : Nat) {ds after : List Char} {Q : List Token → Prop}
    (hq : Writes ds after Q) : Writes (List.replicate n ' ' ++ ds) after Q := by
  induction n with
  | zero => exact hq
  | succ n ih => exact .gap rfl ih

theorem Writes.token {k : Token.Kind} (c : Char) (cs : List Char) {ds after : List Char}
    {Q R : List Token → Prop} (solid : isGap c = false)
    (read : ∀ line, lexeme line c (cs ++ (ds ++ after)) = .ok (k, cs.length))
    (exact : ∀ t : Token, t.kind = k → t.text = String.ofList (c :: cs) → t.IsExact)
    (hq : Writes ds after Q)
    (hr : ∀ t us, t.kind = k → t.text = String.ofList (c :: cs) → Q us → R (t :: us)) :
    Writes (c :: (cs ++ ds)) after R :=
  Reads.token c cs solid read hq fun t us hkind htext hus =>
    ⟨hr t us hkind htext hus.1, List.forall_mem_cons.2 ⟨exact t hkind htext, hus.2⟩⟩

theorem Writes.nil {after : List Char} {P : List Token → Prop} (hp : P []) : Writes [] after P :=
  Reads.nil ⟨hp, fun _ ht => nomatch ht⟩

/-- A token of another kind than numbers is exact. -/
theorem Token.IsExact.of_kind {t : Token} {k : Token.Kind} (hkind : t.kind = k)
    (hk : ∀ n, k ≠ .number n) : t.IsExact :=
  fun _ h => absurd (hkind.symm.trans h) (hk _)

theorem Writes.mark {k : Token.Kind} {c : Char} {ds after : List Char} {Q R : List Token → Prop}
    (hk : punctuation? c = some k) (hq : Writes ds after Q)
    (hr : ∀ t us, t.kind = k → Q us → R (t :: us)) : Writes (c :: ds) after R := by
  have solid : isGap c = false := by
    by_cases hc : isGap c = true
    · simp [isGap] at hc
      rcases hc with (rfl | rfl) | rfl <;> simp [punctuation?] at hk
    · simpa using hc
  have hnumber : ∀ n, k ≠ .number n := by
    rintro n rfl
    unfold punctuation? at hk
    split_ifs at hk <;> cases hk
  exact .token c [] solid (fun line => lexeme_mark hk line _)
    (fun t hkind _ => .of_kind hkind hnumber) hq fun t us hkind _ => hr t us hkind

theorem Writes.newline {ds after : List Char} {Q R : List Token → Prop} (hq : Writes ds after Q)
    (hr : ∀ t us, t.kind = .newline → Q us → R (t :: us)) : Writes ('\n' :: ds) after R :=
  .token '\n' [] rfl (fun line => lexeme_newline line _)
    (fun _ hkind _ => .of_kind hkind nofun) hq fun t us hkind _ => hr t us hkind

/-! ## Atoms -/

theorem Writes.quoted (s : String) {ds after : List Char} {Q R : List Token → Prop}
    (hq : Writes ds after Q) (hr : ∀ t us, t.kind = .string s false → Q us → R (t :: us)) :
    Writes (stringChars s ++ ds) after R :=
  .token '"' (stringBody s.toList ++ ['"']) rfl (fun line => lexeme_stringChars line s _)
    (fun _ hkind _ => .of_kind hkind nofun) hq fun t us hkind _ => hr t us hkind

theorem isGap_of_isNameStart {c : Char} (h : isNameStart c = true) : isGap c = false := by
  by_cases hc : isGap c = true
  · simp [isGap] at hc
    rcases hc with (rfl | rfl) | rfl <;> exact absurd h (by decide)
  · simpa using hc

/-- A name before a character that delimits it. -/
theorem Writes.name {c : Char} {cs ds after : List Char} {Q R : List Token → Prop}
    (hc : isNameStart c = true) (hcs : ∀ d ∈ cs, isNameChar d = true)
    (hend : Delimited (ds ++ after)) (hq : Writes ds after Q)
    (hr : ∀ t us, t.kind = .ident → t.text = String.ofList (c :: cs) → Q us → R (t :: us)) :
    Writes (c :: (cs ++ ds)) after R :=
  .token c cs (isGap_of_isNameStart hc) (fun line => lexeme_name hc hcs line hend)
    (fun _ hkind _ => .of_kind hkind nofun) hq hr

theorem isGap_of_isDigit {c : Char} (h : c.isDigit = true) : isGap c = false := by
  by_cases hc : isGap c = true
  · simp [isGap] at hc
    rcases hc with (rfl | rfl) | rfl <;> exact absurd h (by decide)
  · simpa using hc

/-- The digits of a number before a character that delimits them. -/
theorem Writes.digits (n : Nat) {ds after : List Char} {Q R : List Token → Prop}
    (hend : Delimited (ds ++ after)) (hq : Writes ds after Q)
    (hr : ∀ t us, t.kind = .number (.int n) → Q us → R (t :: us)) :
    Writes (Nat.toDigits 10 n ++ ds) after R := by
  obtain ⟨c, cs, hn⟩ := List.exists_cons_of_ne_nil (Nat.toDigits_ne_nil (n := n) (b := 10))
  have hc : c.isDigit = true := isDigit_of_mem_toDigits c (hn ▸ List.mem_cons_self ..)
  have hexact : ∀ t : Token, t.kind = .number (.int n) → t.text = String.ofList (c :: cs) →
      t.IsExact := by
    intro t hkind htext m hm
    cases hkind.symm.trans hm
    rw [htext, ← hn, Int.natAbs_natCast]
  rw [hn]
  exact .token c cs (isGap_of_isDigit hc) (fun line => lexeme_digits hn line hend) hexact hq
    fun t us hkind _ => hr t us hkind

/-- A key before a blank. -/
theorem Writes.key (k : String) {ds after : List Char} {Q R : List Token → Prop}
    (hend : Delimited (ds ++ after)) (hq : Writes ds after Q)
    (hr : ∀ t us, KeyToken t k → Q us → R (t :: us)) : Writes (keyChars k ++ ds) after R := by
  unfold keyChars
  split
  · next hbare =>
    have hk : k = String.ofList k.toList := String.ofList_toList.symm
    unfold isBareKey at hbare
    cases hcs : k.toList with
    | nil => simp [hcs] at hbare
    | cons c cs =>
      rw [hcs] at hbare hk
      simp only [Bool.and_eq_true, List.all_eq_true] at hbare
      refine .name hbare.1.1 (fun d hd => (hbare.1.2 d hd).1) hend hq fun t us hkind htext => ?_
      rw [← hk] at htext
      exact hr t us (htext ▸ .name hkind)
  · exact .quoted k hq fun t us hkind => hr t us (.quoted hkind)

/-! ## Values -/

theorem writes_integer (n : Int) {after : List Char} (hend : Delimited after) :
    Writes (integerChars n) after (ValueTokens · (.number (.int n))) := by
  have hdigits : ∀ {Q : List Token → Prop}, (∀ t, t.kind = .number (.int n.natAbs) → Q [t]) →
      Writes (Nat.toDigits 10 n.natAbs) after Q := by
    intro Q hq
    rw [← List.append_nil (Nat.toDigits 10 n.natAbs)]
    refine Writes.digits n.natAbs hend (.nil (P := fun ts => ts = []) rfl) ?_
    rintro t us hkind rfl
    exact hq t hkind
  unfold integerChars
  split
  · next hn =>
    have hvalue : Number.int n = (Number.int n.natAbs).neg := by
      simp only [Number.neg, Number.int.injEq]
      omega
    refine .token '-' [] rfl (fun line => lexeme_minus line _)
      (fun _ hkind _ => .of_kind hkind nofun) (hdigits (Q := fun ts => ∃ t, ts = [] ++ [t] ∧ t.kind = .number (.int n.natAbs))
        fun t hkind => ⟨t, rfl, hkind⟩) ?_
    rintro t us hkind htext ⟨u, rfl, hu⟩
    rw [hvalue]
    exact .negative hkind htext Newlines.nil hu
  · next hn =>
    have hvalue : Number.int n = Number.int n.natAbs := by
      simp only [Number.int.injEq]
      omega
    refine hdigits fun t hkind => ?_
    rw [hvalue]
    exact .atom (.number hkind)

theorem writes_word {c : Char} {cs : List Char} {v : Value} (hc : isNameStart c = true)
    (hcs : ∀ d ∈ cs, isNameChar d = true)
    (hv : ∀ t : Token, t.kind = .ident → t.text = String.ofList (c :: cs) → AtomToken t v)
    {after : List Char} (hend : Delimited after) :
    Writes (c :: cs) after (ValueTokens · v) := by
  rw [← List.append_nil cs]
  refine .name hc hcs hend (.nil (P := fun ts => ts = []) rfl) ?_
  rintro t us hkind htext rfl
  exact .atom (hv t hkind htext)

/-! ## Layout -/

theorem intercalate_newline {ls : List (List Char)} (h : ls ≠ []) (after : List Char) :
    ['\n'].intercalate ls ++ '\n' :: after = ls.flatMap (fun l => l ++ ['\n']) ++ after := by
  induction ls with
  | nil => exact absurd rfl h
  | cons l ls ih =>
    cases ls with
    | nil => simp
    | cons m ls =>
      rw [List.intercalate_cons_cons, List.flatMap_cons, List.append_assoc, List.append_assoc,
        ih (List.cons_ne_nil m ls)]
      simp

theorem alignedLines_forall₂ (level : Int) (rs : List Row) :
    List.Forall₂ (fun r l => ∃ width, l = r.line level width) rs (alignedLines level rs) := by
  rw [alignedLines, List.forall₂_map_right_iff, List.forall₂_same]
  exact fun r _ => ⟨_, rfl⟩

/-- Every line of rows is the line of one row, filled to some width. -/
theorem rowLines_forall₂ (level : Int) (run rs : List Row) :
    List.Forall₂ (fun r l => ∃ width, l = r.line level width) (run ++ rs)
      (rowLines level run rs) := by
  induction rs generalizing run with
  | nil =>
    rw [List.append_nil]
    exact alignedLines_forall₂ level run
  | cons r rs ih =>
    unfold rowLines
    split
    · exact List.rel_append (alignedLines_forall₂ level run) (.cons ⟨0, rfl⟩ (ih []))
    · have h := ih (run ++ [r])
      rw [List.append_assoc] at h
      exact h

theorem writes_line (level : Int) (width : Nat) {r : Row} {k : String} {v : Value}
    (hk : r.key = keyChars k) {after : List Char}
    (hv : Writes r.value after (ValueTokens · v)) :
    Writes (r.line level width) after (LineTokens · k v) := by
  have e : r.line level width = List.replicate (2 * level).toNat ' ' ++ (keyChars k ++
      (List.replicate (width - r.key.length) ' ' ++ ' ' :: '=' :: ' ' :: r.value)) := by
    simp [Row.line, indent, hk]
  have hend : Delimited (List.replicate (width - r.key.length) ' ' ++ ' ' :: '=' :: ' ' :: r.value ++
      after) := by
    cases width - r.key.length with
    | zero => exact Delimited.cons rfl _
    | succ n => exact Delimited.cons rfl _
  rw [e]
  refine .spaces _ (.key k hend (.spaces _ (.gap rfl (.token '=' [] rfl
    (fun line => lexeme_equals line _) (fun _ hkind _ => .of_kind hkind nofun) (.gap rfl hv)
    (R := fun ts => ∃ s us, s.kind = .equals ∧ ts = s :: us ∧ ValueTokens us v) ?_))) ?_)
  · exact fun t us hkind _ hus => ⟨t, us, hkind, rfl, hus⟩
  · rintro t us hkey ⟨s, us, hs, rfl, hus⟩
    exact .mk hkey hs hus

/-! ## Values -/

theorem Newlines.single {t : Token} (h : t.kind = .newline) : Newlines [t] := by
  intro u hu
  rw [List.mem_singleton.1 hu, Token.isNewline, h]

theorem tallItems_ne_nil (level : Int) {vs : List Value} (h : vs ≠ []) :
    tallItems level vs ≠ [] := by
  cases vs with
  | nil => exact absurd rfl h
  | cons v vs => simp [tallItems]

theorem rowLines_ne_nil (level : Int) {fields : Fields} (h : fields ≠ []) :
    rowLines level [] (rows level fields) ≠ [] := by
  intro hlines
  have hrows := rowLines_forall₂ level [] (rows level fields)
  rw [hlines] at hrows
  cases fields with
  | nil => exact h rfl
  | cons f fs => simp [rows] at hrows

mutual

/-- The text of a plain value is read as tokens that write the value. -/
theorem writes_valueChars (level : Int) (v : Value) (hv : v.IsPlain) {after : List Char}
    (hend : Delimited after) : Writes (valueChars level v) after (ValueTokens · v) := by
  cases v with
  | null => exact writes_word rfl (List.all_eq_true.1 rfl) (fun t hkind htext => .null hkind htext) hend
  | bool b =>
    cases b with
    | true => exact writes_word rfl (List.all_eq_true.1 rfl) (fun t hkind htext => .yes hkind htext) hend
    | false => exact writes_word rfl (List.all_eq_true.1 rfl) (fun t hkind htext => .no hkind htext) hend
  | number n =>
    cases n with
    | int n => exact writes_integer n hend
    | real d => exact hv.elim
  | text s =>
    rw [valueChars, ← List.append_nil (stringChars s)]
    refine .quoted s (.nil (P := fun ts => ts = []) rfl) ?_
    rintro t us hkind rfl
    exact .atom (.quoted hkind)
  | list items =>
    unfold valueChars
    split
    · next hempty =>
      rw [List.isEmpty_iff.1 hempty]
      refine .mark rfl (.mark rfl (.nil (P := fun ts => ts = []) rfl)
        (R := fun ts => ItemTokens ts []) ?_) fun t us hkind hus => .list hkind hus
      rintro t us hkind rfl
      exact .close Newlines.nil hkind
    · next hempty =>
      have hne : items ≠ [] := fun h => hempty (List.isEmpty_iff.2 h)
      split
      · rw [List.append_assoc, List.cons_append,
          intercalate_newline (tallItems_ne_nil (level + 1) hne)]
        refine .mark rfl (.newline (writes_tallItems level (level + 1) items hv after)
          (R := fun ts => ItemTokens ts items) ?_) fun t us hkind hus => .list hkind hus
        exact fun t us hkind hus => hus t hkind
      · exact .mark rfl (writes_flatItems level items hne hv after) fun t us hkind hus => .list hkind hus
  | object fields =>
    obtain ⟨hdistinct, hplain⟩ := hv
    unfold valueChars
    split
    · next hempty =>
      rw [List.isEmpty_iff.1 hempty]
      refine .mark rfl (.mark rfl (.nil (P := fun ts => ts = []) rfl)
        (R := fun ts => FieldTokens ts []) ?_) fun t us hkind hus => .object hkind hus .nil
      rintro t us hkind rfl
      exact .close Newlines.nil hkind
    · next hempty =>
      have hne : fields ≠ [] := fun h => hempty (List.isEmpty_iff.2 h)
      have hlines := rowLines_forall₂ (level + 1) [] (rows (level + 1) fields)
      rw [List.append_assoc, List.cons_append, intercalate_newline (rowLines_ne_nil (level + 1) hne)]
      refine .mark rfl (.newline (writes_rows level (level + 1) fields hplain hlines after)
        (R := fun ts => FieldTokens ts fields) ?_) fun t us hkind hus =>
          .object hkind hus hdistinct
      exact fun t us hkind hus => hus [t] (Newlines.single hkind)

/-- Items on one line, up to the closing bracket. -/
theorem writes_flatItems (level : Int) (vs : List Value) (hne : vs ≠ []) (hvs : Value.ArePlain vs)
    (after : List Char) :
    Writes ([',', ' '].intercalate (flatItems level vs) ++ [']']) after (ItemTokens · vs) := by
  cases vs with
  | nil => exact absurd rfl hne
  | cons v vs =>
    obtain ⟨hv, hvs⟩ := hvs
    cases vs with
    | nil =>
      have hclose : Writes [']'] after (fun ts => ∃ t, ts = [] ++ [t] ∧ t.kind = .closeBracket) :=
        .mark rfl (.nil (P := fun ts => ts = []) rfl) fun t us hkind hus => ⟨t, by rw [hus]; rfl, hkind⟩
      rw [flatItems, flatItems, List.intercalate_singleton]
      refine .append (writes_valueChars level v hv (Delimited.cons rfl _)) hclose ?_
      rintro ts us hts ⟨t, rfl, hkind⟩
      exact .last Newlines.nil hts Newlines.nil hkind
    | cons w ws =>
      have hrest := writes_flatItems level (w :: ws) (List.cons_ne_nil w ws) hvs after
      have e : [',', ' '].intercalate (flatItems level (v :: w :: ws)) ++ [']'] =
          valueChars level v ++ (',' :: ' ' ::
            ([',', ' '].intercalate (flatItems level (w :: ws)) ++ [']'])) := by
        simp [flatItems, List.intercalate_cons_cons]
      have hcomma : Writes (',' :: ' ' ::
          ([',', ' '].intercalate (flatItems level (w :: ws)) ++ [']'])) after
          (fun ts => ∃ t us, ts = [] ++ t :: us ∧ t.kind = .comma ∧ ItemTokens us (w :: ws)) :=
        .mark rfl (.gap rfl hrest) fun t us hkind hus => ⟨t, us, rfl, hkind, hus⟩
      rw [e]
      refine .append (writes_valueChars level v hv (Delimited.cons rfl _)) hcomma ?_
      rintro ts us hts ⟨t, us, rfl, hkind, hus⟩
      exact .more Newlines.nil hts Newlines.nil hkind hus

/-- Items on lines of their own, up to the closing bracket, after the newline before them. -/
theorem writes_tallItems (outer level : Int) (vs : List Value) (hvs : Value.ArePlain vs)
    (after : List Char) :
    Writes ((tallItems level vs).flatMap (fun l => l ++ ['\n']) ++ (indent outer ++ [']'])) after
      (fun ts => ∀ t : Token, t.kind = .newline → ItemTokens (t :: ts) vs) := by
  cases vs with
  | nil =>
    refine .spaces _ (.mark rfl (.nil (P := fun ts => ts = []) rfl) ?_)
    rintro t us hkind rfl s hs
    exact .close (Newlines.single hs) hkind
  | cons v vs =>
    obtain ⟨hv, hvs⟩ := hvs
    have hrest := writes_tallItems outer level vs hvs after
    have e : (tallItems level (v :: vs)).flatMap (fun l => l ++ ['\n']) ++ (indent outer ++ [']']) =
        List.replicate (2 * level).toNat ' ' ++ (valueChars level v ++ (',' :: '\n' ::
          ((tallItems level vs).flatMap (fun l => l ++ ['\n']) ++ (indent outer ++ [']'])))) := by
      simp [tallItems, indent]
    have hcomma : Writes (',' :: '\n' :: ((tallItems level vs).flatMap (fun l => l ++ ['\n']) ++
        (indent outer ++ [']']))) after
        (fun ts => ∃ t us, ts = [] ++ t :: us ∧ t.kind = .comma ∧ ItemTokens us vs) := by
      refine .mark rfl (.newline hrest (R := fun ts => ItemTokens ts vs) ?_) ?_
      · exact fun t us hkind hus => hus t hkind
      · exact fun t us hkind hus => ⟨t, us, rfl, hkind, hus⟩
    rw [e]
    refine .spaces _ (.append (writes_valueChars level v hv (Delimited.cons rfl _)) hcomma ?_)
    rintro ts us hts ⟨t, us, rfl, hkind, hus⟩ s hs
    exact .more (Newlines.single hs) hts Newlines.nil hkind hus

/-- Lines of rows, up to the closing brace. -/
theorem writes_rows (outer level : Int) (fs : Fields) (hfs : Value.FieldsPlain fs)
    {ls : List (List Char)}
    (hls : List.Forall₂ (fun r l => ∃ width, l = Row.line level width r) (rows level fs) ls)
    (after : List Char) :
    Writes (ls.flatMap (fun l => l ++ ['\n']) ++ (indent outer ++ ['\x7d'])) after
      (fun ts => ∀ ns, Newlines ns → FieldTokens (ns ++ ts) fs) := by
  cases fs with
  | nil =>
    cases hls
    refine .spaces _ (.mark rfl (.nil (P := fun ts => ts = []) rfl) ?_)
    rintro t us hkind rfl ns hns
    exact .close hns hkind
  | cons f fs =>
    obtain ⟨k, v⟩ := f
    obtain ⟨hv, hfs⟩ := hfs
    cases hls with
    | @cons _ l _ ls hl hls =>
      obtain ⟨width, rfl⟩ := hl
      have hrest := writes_rows outer level fs hfs hls after
      rw [List.flatMap_cons, List.append_assoc, List.append_assoc]
      refine .append (writes_line level width rfl (writes_valueChars level v hv
        (Delimited.cons rfl _))) (.newline hrest
        (R := fun ts => ∃ t us, ts = t :: us ∧ t.kind = .newline ∧
          ∀ ns, Newlines ns → FieldTokens (ns ++ us) fs) ?_) ?_
      · exact fun t us hkind hus => ⟨t, us, rfl, hkind, hus⟩
      · rintro ts us hts ⟨t, us, rfl, hkind, hus⟩ ns hns
        exact .more hns hts.entry (.inr hkind) (hus [] Newlines.nil)

end

/-- The text of an entry with a plain value is read as tokens that write the entry. -/
theorem writes_entry (level : Int) (k : String) (v : Value) (hv : v.IsPlain) {after : List Char}
    (hend : Delimited after) :
    Writes (indent level ++ keyChars k ++ [' ', '=', ' '] ++ valueChars level v) after
      (LineTokens · k v) := by
  have h := writes_line level 0 (r := ⟨keyChars k, valueChars level v⟩) rfl
    (writes_valueChars level v hv hend)
  simpa [Row.line] using h

/-! ## Reading undoes writing -/

theorem Writes.tokenize {cs : List Char} {P : List Token → Prop} (h : Writes cs [] P) :
    ∃ ts, tokenize (String.ofList cs) = .ok ts ∧ P ts ∧ ∀ t ∈ ts, t.IsExact := by
  obtain ⟨ps, rfl, hlexed, hps⟩ := h
  exact ⟨placed 0 0 ps, tokenize_charsOf hlexed, hps 0 0⟩

theorem Writes.significantTokens {cs : List Char} {P : List Token → Prop} (h : Writes cs [] P)
    (hp : ∀ ts, P ts → Uncommented ts) :
    ∃ ts, significantTokens (String.ofList cs) = .ok ts ∧ P ts := by
  obtain ⟨ts, htokens, hts, -⟩ := h.tokenize
  have hfilter : ts.filter (fun t => !t.isComment) = ts := by
    rw [List.filter_eq_self]
    intro t ht
    rw [hp _ hts t ht]
    rfl
  refine ⟨ts, ?_, hts⟩
  rw [InstanceInventory.Literal.significantTokens, htokens, Except.map, hfilter]

/-- The one entry of a text, after newlines and before a comma at most. -/
theorem parseEntry_of_tokens {text : String} {ns ts rest : List Token} {k : String} {v : Value}
    (hts : significantTokens text = .ok (ns ++ (ts ++ rest))) (hns : Newlines ns)
    (h : EntryTokens ts k v) (hrest : rest = [] ∨ ∃ t, rest = [t] ∧ t.kind = .comma) :
    parseEntry text = .ok (k, v) := by
  obtain ⟨lt, hread⟩ := readEntry_of_tokens h rest
  obtain ⟨t, us, rfl, hkind, -⟩ := h.head
  have hskip : skipNewlines (ns ++ (t :: us ++ rest)) = t :: us ++ rest :=
    skipNewlines_append hns hkind (us ++ rest)
  have hread' : ∃ lt, readEntry (skipNewlines (ns ++ (t :: us ++ rest))) =
      .ok ((k, v), ⟨rest, lt⟩) := by
    rw [hskip]
    exact ⟨lt, hread⟩
  obtain ⟨lt', hread'⟩ := hread'
  rw [parseEntry, hts]
  simp only [bind, Except.bind, hread']
  rcases hrest with rfl | ⟨c, rfl, hc⟩
  · rfl
  · simp [hc, skipNewlines, pure, Except.pure]

/-- The one entry of the text of an entry is that entry. -/
theorem parseEntry_renderEntry (level : Int) (k : String) (v : Value) (hv : v.IsPlain) :
    parseEntry (renderEntry level k v) = .ok (k, v) := by
  obtain ⟨ts, hts, hentry⟩ := (writes_entry level k v hv Delimited.nil).significantTokens
    fun _ h => h.entry.uncommented
  have hts' : significantTokens (renderEntry level k v) = .ok ([] ++ (ts ++ [])) := by
    rw [List.nil_append, List.append_nil]
    exact hts
  exact parseEntry_of_tokens hts' Newlines.nil hentry.entry (.inl rfl)

end Literal
end InstanceInventory

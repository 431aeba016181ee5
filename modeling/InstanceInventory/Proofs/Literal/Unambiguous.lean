import InstanceInventory.Proofs.Literal.Derivation

/-! # The grammar of literals is unambiguous

* `ValueTree.unique`: two derivations of a value, each with tokens after it, derive the same tokens
  only if they are the same and the same tokens follow.
* `LiteralTree.unique`: tokens have one derivation as a literal at most.
* `parses_exactly_the_grammar`: the parser reads the one literal that the tokens of a text derive, and
  finds a syntax error if they derive none.
-/

namespace InstanceInventory.Literal
set_option autoImplicit false
variable {among among' : Token.Kind → Prop} {ts us r r' : List Token} {t : Token}
variable {k k' : String} {v v' : Value} {vs vs' : List Value} {fs fs' : Fields}

/-! ## Heads -/

/-- Tokens the first of which is of one of some kinds. -/
def Headed (among : Token.Kind → Prop) (ts : List Token) : Prop :=
  ∃ t us, ts = t :: us ∧ among t.kind

theorem Headed.cons (ht : among t.kind) (ts : List Token) : Headed among (t :: ts) :=
  ⟨t, ts, rfl, ht⟩

theorem Headed.append (h : Headed among ts) (us : List Token) : Headed among (ts ++ us) := by
  obtain ⟨t, ts, rfl, ht⟩ := h
  exact .cons ht (ts ++ us)

theorem Headed.mono (h : Headed among ts) (himp : ∀ kind, among kind → among' kind) :
    Headed among' ts := by
  obtain ⟨t, ts, rfl, ht⟩ := h
  exact .cons (himp _ ht) ts

/-- Tokens are not headed by kinds that exclude each other. -/
theorem Headed.clash (h : Headed among ts) (h' : Headed among' ts)
    (hdisjoint : ∀ kind, among kind → ¬among' kind) : False := by
  obtain ⟨t, us, rfl, ht⟩ := h
  obtain ⟨t', us', heq, ht'⟩ := h'
  cases heq
  exact hdisjoint _ ht ht'

/-- The kinds that begin an item or an entry before a closing sign: neither that sign nor a
newline. -/
def BeginsPart (closer kind : Token.Kind) : Prop :=
  kind ≠ .newline ∧ kind ≠ closer

theorem ValueTree.headed (d : ValueTree v) (us : List Token) :
    Headed (BeginsPart .closeBracket) (d.tokens ++ us) := by
  obtain ⟨t, ts, hts, ht⟩ := d.valueTokens.head
  rw [hts]
  exact .cons ⟨ht.1, ht.2.1⟩ (ts ++ us)

theorem EntryTree.headed (d : EntryTree k v) (us : List Token) :
    Headed (BeginsPart .closeBrace) (d.tokens ++ us) := by
  obtain ⟨t, ts, hts, ht⟩ := d.entryTokens.head
  rw [hts]
  exact .cons ht (ts ++ us)

theorem LaterItems.headed (d : LaterItems vs) (hr : Headed (· = .closeBracket) r) :
    Headed (· ≠ .newline) (d.tokens ++ r) := by
  cases d with
  | stop trailing =>
    cases trailing with
    | none => exact hr.mono (by simp)
    | some s => exact .cons (by simp [s.kind]) _
  | more separator value blank later => exact .cons (by simp [separator.kind]) _

theorem ItemsTree.headed (d : ItemsTree vs) (hr : Headed (· = .closeBracket) r) :
    Headed (· ≠ .newline) (d.tokens ++ r) := by
  cases d with
  | empty => exact hr.mono (by simp)
  | filled first blank later =>
    rw [ItemsTree.tokens, List.append_assoc]
    exact (first.headed _).mono fun _ hkind => hkind.1

theorem FieldsTree.headed (d : FieldsTree fs) (hr : Headed (· = .closeBrace) r) :
    Headed (· ≠ .newline) (d.tokens ++ r) := by
  cases d with
  | empty => exact hr.mono (by simp)
  | filled first later =>
    rw [FieldsTree.tokens, List.append_assoc]
    exact (first.headed _).mono fun _ hkind => hkind.1

/-! ## Blanks and separators -/

theorem Mark.clash {kind kind' : Token.Kind} (m : Mark kind) (m' : Mark kind') (hne : kind ≠ kind')
    (heq : m.1 = m'.1) : False :=
  hne (m.2.symm.trans (heq ▸ m'.2))

/-- Blanks before what is no newline end at the same place. -/
theorem Blank.cancel {b b' : Blank} (h : b.1 ++ r = b'.1 ++ r') (hr : Headed (· ≠ .newline) r)
    (hr' : Headed (· ≠ .newline) r') : b = b' ∧ r = r' := by
  obtain ⟨t, us, rfl, ht⟩ := hr
  obtain ⟨t', us', rfl, ht'⟩ := hr'
  have hrest : t :: us = t' :: us' := by
    rw [← skipNewlines_append b.2 ht us, h, skipNewlines_append b'.2 ht' us']
  rw [hrest] at h
  exact ⟨Subtype.ext (List.append_cancel_right h), hrest⟩

theorem Separator.cancel {s s' : Separator among} (h : s.tokens ++ r = s'.tokens ++ r')
    (hr : Headed (· ≠ .newline) r) (hr' : Headed (· ≠ .newline) r') : s = s' ∧ r = r' := by
  obtain ⟨mark, kind, blank⟩ := s
  obtain ⟨mark', kind', blank'⟩ := s'
  obtain ⟨rfl, h⟩ := List.cons.inj h
  obtain ⟨rfl, rfl⟩ := Blank.cancel h hr hr'
  exact ⟨rfl, rfl⟩

section Closers
variable {closer : Token.Kind} (hcloser : ¬among closer) (hne : closer ≠ .newline)
include hcloser hne

/-- A separator before a closing sign is not one before an item or entry. -/
theorem trailing_clash {trailing : Option (Separator among)} {s : Separator among}
    (h : trailingTokens trailing ++ r = s.tokens ++ r') (hr : Headed (· = closer) r)
    (hr' : Headed (BeginsPart closer) r') : False := by
  cases trailing with
  | none =>
    have hs : Headed among r := by
      rw [show r = s.tokens ++ r' from h]
      exact .cons s.kind _
    exact hr.clash hs fun kind heq => heq ▸ hcloser
  | some s' =>
    obtain ⟨-, rfl⟩ := Separator.cancel h (hr.mono fun kind heq => heq ▸ hne)
      (hr'.mono fun kind hkind => hkind.1)
    exact hr.clash hr' fun kind heq hkind => hkind.2 heq

theorem trailing_cancel {trailing trailing' : Option (Separator among)}
    (h : trailingTokens trailing ++ r = trailingTokens trailing' ++ r')
    (hr : Headed (· = closer) r) (hr' : Headed (· = closer) r') :
    trailing = trailing' ∧ r = r' := by
  have hout : ∀ {us us' : List Token} (s : Separator among), Headed (· = closer) us →
      us ≠ s.tokens ++ us' := by
    rintro us us' s hus rfl
    exact hus.clash (Headed.cons s.kind _) fun kind heq => heq ▸ hcloser
  cases trailing with
  | none =>
    cases trailing' with
    | none => exact ⟨rfl, h⟩
    | some s' => exact absurd h (hout s' hr)
  | some s =>
    cases trailing' with
    | none => exact absurd h.symm (hout s hr')
    | some s' =>
      obtain ⟨rfl, rfl⟩ := Separator.cancel h (hr.mono fun kind heq => heq ▸ hne)
        (hr'.mono fun kind heq => heq ▸ hne)
      exact ⟨rfl, rfl⟩

end Closers

/-! ## Single tokens -/

theorem AtomToken.kind_ne {t : Token} (h : AtomToken t v) :
    t.kind ≠ .operator ∧ t.kind ≠ .openBracket ∧ t.kind ≠ .openBrace := by
  cases h <;> simp_all

theorem AtomToken.unique {t : Token} (h : AtomToken t v) (h' : AtomToken t v') : v = v' := by
  cases h <;> cases h' <;> simp_all

theorem KeyToken.unique {t : Token} (h : KeyToken t k) (h' : KeyToken t k') : k = k' := by
  cases h <;> cases h' <;> simp_all

/-! ## Derivations -/

mutual

/-- A derivation of a value is determined by tokens that begin with those it derives. -/
theorem ValueTree.unique {v v' : Value} {r r' : List Token} :
    (d : ValueTree v) → (d' : ValueTree v') → d.tokens ++ r = d'.tokens ++ r' →
      (⟨v, d⟩ : Σ v, ValueTree v) = ⟨v', d'⟩ ∧ r = r'
  -- The first token tells the forms of values apart; then part is cancelled after part, since no part
  -- begins with what may follow the one before it.
  | .atom t writes, d', h => by
    cases d' with
    | atom t' writes' =>
      obtain ⟨rfl, rfl⟩ := List.cons.inj h
      cases writes.unique writes'
      exact ⟨rfl, rfl⟩
    | negative minus => exact absurd minus.2 ((List.cons.inj h).1 ▸ writes.kind_ne.1)
    | list opening => exact absurd opening.2 ((List.cons.inj h).1 ▸ writes.kind_ne.2.1)
    | object opening => exact absurd opening.2 ((List.cons.inj h).1 ▸ writes.kind_ne.2.2)
  | .negative minus sign blank number, d', h => by
    cases d' with
    | atom t' writes' => exact absurd minus.2 ((List.cons.inj h).1 ▸ writes'.kind_ne.1)
    | negative minus' sign' blank' number' =>
      simp only [ValueTree.tokens, List.cons_append, List.append_assoc] at h
      obtain ⟨hminus, hblank⟩ := List.cons.inj h
      obtain ⟨rfl, hnumber⟩ := Blank.cancel hblank (.cons (by simp [number.2]) r)
        (.cons (by simp [number'.2]) r')
      obtain ⟨hmark, rfl⟩ := List.cons.inj hnumber
      obtain ⟨t, ht⟩ := number
      obtain ⟨t', ht'⟩ := number'
      cases Subtype.ext hminus
      cases hmark
      cases ht.symm.trans ht'
      exact ⟨rfl, rfl⟩
    | list opening => exact (minus.clash opening (by simp) (List.cons.inj h).1).elim
    | object opening => exact (minus.clash opening (by simp) (List.cons.inj h).1).elim
  | .list opening blank items closing, d', h => by
    cases d' with
    | atom t' writes' => exact absurd opening.2 ((List.cons.inj h).1 ▸ writes'.kind_ne.2.1)
    | negative minus => exact (opening.clash minus (by simp) (List.cons.inj h).1).elim
    | list opening' blank' items' closing' =>
      have hr : Headed (· = .closeBracket) (closing.1 :: r) := .cons closing.2 r
      have hr' : Headed (· = .closeBracket) (closing'.1 :: r') := .cons closing'.2 r'
      simp only [ValueTree.tokens, List.cons_append, List.append_assoc] at h
      obtain ⟨hopening, hblank⟩ := List.cons.inj h
      obtain ⟨rfl, hitems⟩ := Blank.cancel hblank (items.headed hr) (items'.headed hr')
      obtain ⟨hsame, hclosing⟩ := items.unique items' hitems hr hr'
      obtain ⟨hmark, rfl⟩ := List.cons.inj hclosing
      cases Subtype.ext hopening
      cases Subtype.ext hmark
      cases hsame
      exact ⟨rfl, rfl⟩
    | object opening' => exact (opening.clash opening' (by simp) (List.cons.inj h).1).elim
  | .object opening blank fields closing distinct, d', h => by
    cases d' with
    | atom t' writes' => exact absurd opening.2 ((List.cons.inj h).1 ▸ writes'.kind_ne.2.2)
    | negative minus => exact (opening.clash minus (by simp) (List.cons.inj h).1).elim
    | list opening' => exact (opening.clash opening' (by simp) (List.cons.inj h).1).elim
    | object opening' blank' fields' closing' distinct' =>
      have hr : Headed (· = .closeBrace) (closing.1 :: r) := .cons closing.2 r
      have hr' : Headed (· = .closeBrace) (closing'.1 :: r') := .cons closing'.2 r'
      simp only [ValueTree.tokens, List.cons_append, List.append_assoc] at h
      obtain ⟨hopening, hblank⟩ := List.cons.inj h
      obtain ⟨rfl, hfields⟩ := Blank.cancel hblank (fields.headed hr) (fields'.headed hr')
      obtain ⟨hsame, hclosing⟩ := fields.unique fields' hfields hr hr'
      obtain ⟨hmark, rfl⟩ := List.cons.inj hclosing
      cases Subtype.ext hopening
      cases Subtype.ext hmark
      cases hsame
      exact ⟨rfl, rfl⟩
termination_by structural d => d

theorem ItemsTree.unique {vs vs' : List Value} {r r' : List Token} :
    (d : ItemsTree vs) → (d' : ItemsTree vs') → d.tokens ++ r = d'.tokens ++ r' →
      Headed (· = .closeBracket) r → Headed (· = .closeBracket) r' →
      (⟨vs, d⟩ : Σ vs, ItemsTree vs) = ⟨vs', d'⟩ ∧ r = r'
  | .empty, .empty, h, _, _ => ⟨rfl, h⟩
  | .empty, .filled first blank later, h, hr, _ => by
    simp only [ItemsTree.tokens, List.append_assoc, List.nil_append] at h
    exact (hr.clash (h ▸ first.headed _) fun _ heq hkind => hkind.2 heq).elim
  | .filled first blank later, .empty, h, _, hr' => by
    simp only [ItemsTree.tokens, List.append_assoc, List.nil_append] at h
    exact (hr'.clash (h ▸ first.headed _) fun _ heq hkind => hkind.2 heq).elim
  | .filled first blank later, .filled first' blank' later', h, hr, hr' => by
    simp only [ItemsTree.tokens, List.append_assoc] at h
    obtain ⟨hsame, hblank⟩ := first.unique first' h
    obtain ⟨rfl, hlater⟩ := Blank.cancel hblank (later.headed hr) (later'.headed hr')
    obtain ⟨hothers, rfl⟩ := later.unique later' hlater hr hr'
    cases hsame
    cases hothers
    exact ⟨rfl, rfl⟩
termination_by structural d => d

theorem LaterItems.unique {vs vs' : List Value} {r r' : List Token} :
    (d : LaterItems vs) → (d' : LaterItems vs') → d.tokens ++ r = d'.tokens ++ r' →
      Headed (· = .closeBracket) r → Headed (· = .closeBracket) r' →
      (⟨vs, d⟩ : Σ vs, LaterItems vs) = ⟨vs', d'⟩ ∧ r = r'
  | .stop trailing, .stop trailing', h, hr, hr' => by
    obtain ⟨rfl, rfl⟩ := trailing_cancel (by simp) (by simp) h hr hr'
    exact ⟨rfl, rfl⟩
  | .stop trailing, .more separator value blank later, h, hr, _ => by
    simp only [LaterItems.tokens, List.append_assoc] at h
    exact (trailing_clash (by simp) (by simp) h hr (value.headed _)).elim
  | .more separator value blank later, .stop trailing, h, _, hr' => by
    simp only [LaterItems.tokens, List.append_assoc] at h
    exact (trailing_clash (by simp) (by simp) h.symm hr' (value.headed _)).elim
  | .more separator value blank later, .more separator' value' blank' later', h, hr, hr' => by
    simp only [LaterItems.tokens, List.append_assoc] at h
    obtain ⟨rfl, hvalue⟩ := Separator.cancel h ((value.headed _).mono fun _ hkind => hkind.1)
      ((value'.headed _).mono fun _ hkind => hkind.1)
    obtain ⟨hsame, hblank⟩ := value.unique value' hvalue
    obtain ⟨rfl, hlater⟩ := Blank.cancel hblank (later.headed hr) (later'.headed hr')
    obtain ⟨hothers, rfl⟩ := later.unique later' hlater hr hr'
    cases hsame
    cases hothers
    exact ⟨rfl, rfl⟩
termination_by structural d => d

theorem FieldsTree.unique {fs fs' : Fields} {r r' : List Token} :
    (d : FieldsTree fs) → (d' : FieldsTree fs') → d.tokens ++ r = d'.tokens ++ r' →
      Headed (· = .closeBrace) r → Headed (· = .closeBrace) r' →
      (⟨fs, d⟩ : Σ fs, FieldsTree fs) = ⟨fs', d'⟩ ∧ r = r'
  | .empty, .empty, h, _, _ => ⟨rfl, h⟩
  | .empty, .filled first later, h, hr, _ => by
    simp only [FieldsTree.tokens, List.append_assoc, List.nil_append] at h
    exact (hr.clash (h ▸ first.headed _) fun _ heq hkind => hkind.2 heq).elim
  | .filled first later, .empty, h, _, hr' => by
    simp only [FieldsTree.tokens, List.append_assoc, List.nil_append] at h
    exact (hr'.clash (h ▸ first.headed _) fun _ heq hkind => hkind.2 heq).elim
  | .filled first later, .filled first' later', h, hr, hr' => by
    simp only [FieldsTree.tokens, List.append_assoc] at h
    obtain ⟨hsame, hlater⟩ := first.unique first' h
    obtain ⟨hothers, rfl⟩ := later.unique later' hlater hr hr'
    cases hsame
    cases hothers
    exact ⟨rfl, rfl⟩
termination_by structural d => d

theorem LaterFields.unique {fs fs' : Fields} {r r' : List Token} :
    (d : LaterFields fs) → (d' : LaterFields fs') → d.tokens ++ r = d'.tokens ++ r' →
      Headed (· = .closeBrace) r → Headed (· = .closeBrace) r' →
      (⟨fs, d⟩ : Σ fs, LaterFields fs) = ⟨fs', d'⟩ ∧ r = r'
  | .stop trailing, .stop trailing', h, hr, hr' => by
    obtain ⟨rfl, rfl⟩ := trailing_cancel (by simp) (by simp) h hr hr'
    exact ⟨rfl, rfl⟩
  | .stop trailing, .more separator entry later, h, hr, _ => by
    simp only [LaterFields.tokens, List.append_assoc] at h
    exact (trailing_clash (by simp) (by simp) h hr (entry.headed _)).elim
  | .more separator entry later, .stop trailing, h, _, hr' => by
    simp only [LaterFields.tokens, List.append_assoc] at h
    exact (trailing_clash (by simp) (by simp) h.symm hr' (entry.headed _)).elim
  | .more separator entry later, .more separator' entry' later', h, hr, hr' => by
    simp only [LaterFields.tokens, List.append_assoc] at h
    obtain ⟨rfl, hentry⟩ := Separator.cancel h ((entry.headed _).mono fun _ hkind => hkind.1)
      ((entry'.headed _).mono fun _ hkind => hkind.1)
    obtain ⟨hsame, hlater⟩ := entry.unique entry' hentry
    obtain ⟨hothers, rfl⟩ := later.unique later' hlater hr hr'
    cases hsame
    cases hothers
    exact ⟨rfl, rfl⟩
termination_by structural d => d

theorem EntryTree.unique {k k' : String} {v v' : Value} {r r' : List Token} :
    (d : EntryTree k v) → (d' : EntryTree k' v') → d.tokens ++ r = d'.tokens ++ r' →
      (⟨(k, v), d⟩ : Σ e : String × Value, EntryTree e.1 e.2) = ⟨(k', v'), d'⟩ ∧ r = r'
  | .mk key writes blank sign kind after value, .mk key' writes' blank' sign' kind' after' value',
    h => by
    simp only [EntryTree.tokens, List.cons_append, List.append_assoc] at h
    obtain ⟨rfl, hblank⟩ := List.cons.inj h
    obtain ⟨rfl, hsign⟩ := Blank.cancel hblank (.cons (by rcases kind with hk | hk <;> simp [hk]) _)
      (.cons (by rcases kind' with hk | hk <;> simp [hk]) _)
    obtain ⟨rfl, hafter⟩ := List.cons.inj hsign
    obtain ⟨rfl, hvalue⟩ := Blank.cancel hafter ((value.headed _).mono fun _ hkind => hkind.1)
      ((value'.headed _).mono fun _ hkind => hkind.1)
    obtain ⟨hsame, rfl⟩ := value.unique value' hvalue
    cases hsame
    cases writes.unique writes'
    exact ⟨rfl, rfl⟩
termination_by structural d => d

end

theorem LiteralTree.unique {v v' : Value} (d : LiteralTree v) (d' : LiteralTree v')
    (h : d.tokens = d'.tokens) : (⟨v, d⟩ : Σ v, LiteralTree v) = ⟨v', d'⟩ := by
  obtain ⟨before, value, after⟩ := d
  obtain ⟨before', value', after'⟩ := d'
  obtain ⟨rfl, hvalue⟩ := Blank.cancel h ((value.headed _).mono fun _ hkind => hkind.1)
    ((value'.headed _).mono fun _ hkind => hkind.1)
  obtain ⟨hsame, hafter⟩ := value.unique value' hvalue
  cases hsame
  cases Subtype.ext hafter
  rfl

/-! ## The parser -/

/-- The tokens that the parser reads: all but the comments. -/
def significant (ts : List Token) : List Token :=
  ts.filter fun t => !t.isComment

/-- The parser reads what the tokens of a text derive. -/
theorem LiteralTree.parseValue {text : String} (d : LiteralTree v)
    (h : significantTokens text = .ok d.tokens) : parseValue text = .ok v := by
  obtain ⟨lt, hread⟩ := readValue_of_tokens d.before.2 d.value.valueTokens d.after.1
  have hafter : (skipNewlines d.after.1).isEmpty = true := by
    rw [skipNewlines, List.isEmpty_iff, List.dropWhile_eq_nil_iff]
    exact d.after.2
  rw [Literal.parseValue, h]
  simp only [LiteralTree.tokens, bind, Except.bind, hread, hafter, if_true]
  rfl

end InstanceInventory.Literal

import InstanceInventory.Literal.Parser

/-! # The grammar of literals

* `ValueTokens`, `EntryTokens`: the tokens that write a value, and the tokens that write an entry,
  comments left out. Newlines may stand after every sign and bracket and around the commas of a
  list; the entries of an object are set apart by a comma or one newline.
* `readValue_of_tokens`, `readEntry_of_tokens`: the parser accepts what the grammar derives.
-/

namespace InstanceInventory.Literal
set_option autoImplicit false

/-! ## Derivations -/

/-- Tokens that are all newlines. -/
def Newlines (ts : List Token) : Prop :=
  ∀ t ∈ ts, t.isNewline = true

theorem Newlines.nil : Newlines [] := fun _ h => nomatch h

/-- A token that writes a key. -/
inductive KeyToken (t : Token) : String → Prop
  | name (kind : t.kind = .ident) : KeyToken t t.text
  | quoted {s : String} (kind : t.kind = .string s false) : KeyToken t s

/-- A token that writes a value by itself. -/
inductive AtomToken (t : Token) : Value → Prop
  | quoted {s : String} (kind : t.kind = .string s false) : AtomToken t (.text s)
  | heredoc {s : String} (kind : t.kind = .heredoc s) : AtomToken t (.text s)
  | number {n : Number} (kind : t.kind = .number n) : AtomToken t (.number n)
  | yes (kind : t.kind = .ident) (word : t.text = "true") : AtomToken t (.bool true)
  | no (kind : t.kind = .ident) (word : t.text = "false") : AtomToken t (.bool false)
  | null (kind : t.kind = .ident) (word : t.text = "null") : AtomToken t .null

mutual

/-- The tokens that write a value. -/
inductive ValueTokens : List Token → Value → Prop
  | atom {t : Token} {v : Value} (atom : AtomToken t v) : ValueTokens [t] v
  | negative {t u : Token} {ns : List Token} {n : Number} (kind : t.kind = .operator)
    (minus : t.text = "-") (blank : Newlines ns) (value : u.kind = .number n) :
    ValueTokens (t :: (ns ++ [u])) (.number n.neg)
  | list {t : Token} {ts : List Token} {vs : List Value} (kind : t.kind = .openBracket)
    (items : ItemTokens ts vs) : ValueTokens (t :: ts) (.list vs)
  | object {t : Token} {ts : List Token} {fs : Fields} (kind : t.kind = .openBrace)
    (fields : FieldTokens ts fs) (distinct : (fs.map Prod.fst).Nodup) :
    ValueTokens (t :: ts) (.object fs)

/-- The tokens from inside the brackets of a list up to the closing one. -/
inductive ItemTokens : List Token → List Value → Prop
  | close {ns : List Token} {t : Token} (blank : Newlines ns) (kind : t.kind = .closeBracket) :
    ItemTokens (ns ++ [t]) []
  | last {ns ts ms : List Token} {t : Token} {v : Value} (blank : Newlines ns)
    (value : ValueTokens ts v) (blank' : Newlines ms) (kind : t.kind = .closeBracket) :
    ItemTokens (ns ++ (ts ++ (ms ++ [t]))) [v]
  | more {ns ts ms us : List Token} {t : Token} {v : Value} {vs : List Value} (blank : Newlines ns)
    (value : ValueTokens ts v) (blank' : Newlines ms) (kind : t.kind = .comma)
    (others : ItemTokens us vs) : ItemTokens (ns ++ (ts ++ (ms ++ t :: us))) (v :: vs)

/-- The tokens from inside the braces of an object up to the closing one. -/
inductive FieldTokens : List Token → Fields → Prop
  | close {ns : List Token} {t : Token} (blank : Newlines ns) (kind : t.kind = .closeBrace) :
    FieldTokens (ns ++ [t]) []
  | last {ns ts : List Token} {t : Token} {k : String} {v : Value} (blank : Newlines ns)
    (entry : EntryTokens ts k v) (kind : t.kind = .closeBrace) :
    FieldTokens (ns ++ (ts ++ [t])) [(k, v)]
  | more {ns ts us : List Token} {t : Token} {k : String} {v : Value} {fs : Fields}
    (blank : Newlines ns) (entry : EntryTokens ts k v) (kind : t.kind = .comma ∨ t.kind = .newline)
    (others : FieldTokens us fs) : FieldTokens (ns ++ (ts ++ t :: us)) ((k, v) :: fs)

/-- The tokens that write an entry. -/
inductive EntryTokens : List Token → String → Value → Prop
  | mk {t s : Token} {ns ms ts : List Token} {k : String} {v : Value} (key : KeyToken t k)
    (blank : Newlines ns) (sign : s.kind = .equals ∨ s.kind = .colon) (blank' : Newlines ms)
    (value : ValueTokens ts v) : EntryTokens (t :: (ns ++ s :: (ms ++ ts))) k v

end

/-- A key, an equals sign and a value, one directly after another. -/
inductive LineTokens : List Token → String → Value → Prop
  | mk {t s : Token} {ts : List Token} {k : String} {v : Value} (key : KeyToken t k)
    (sign : s.kind = .equals) (value : ValueTokens ts v) : LineTokens (t :: s :: ts) k v

theorem LineTokens.entry {ts : List Token} {k : String} {v : Value} (h : LineTokens ts k v) :
    EntryTokens ts k v := by
  cases h with
  | mk key sign value => exact .mk key Newlines.nil (.inl sign) Newlines.nil value

/-! ## Tokens ahead -/

theorem Token.isNewline_of_kind {t : Token} (h : t.kind ≠ .newline) : t.isNewline = false := by
  unfold Token.isNewline
  split
  · next hk => exact absurd hk h
  · rfl

theorem skipNewlines_append {ns : List Token} {t : Token} (hns : Newlines ns)
    (ht : t.kind ≠ .newline) (rest : List Token) : skipNewlines (ns ++ t :: rest) = t :: rest := by
  rw [skipNewlines, List.dropWhile_append_of_pos hns,
    List.dropWhile_cons_of_neg (by simp [Token.isNewline_of_kind ht])]

theorem nextToken_append {ns : List Token} {t : Token} (hns : Newlines ns)
    (ht : t.kind ≠ .newline) (rest : List Token) :
    ∃ h, nextToken (ns ++ t :: rest) = .ok (t, ⟨rest, h⟩) := by
  refine ⟨by simp; omega, ?_⟩
  have hskip := skipNewlines_append hns ht rest
  unfold nextToken
  split
  · next h => simp [hskip] at h
  · next h =>
    rw [hskip] at h
    cases h
    rfl

theorem nextToken_cons {t : Token} (ht : t.kind ≠ .newline) (rest : List Token) :
    ∃ h, nextToken (t :: rest) = .ok (t, ⟨rest, h⟩) :=
  nextToken_append Newlines.nil ht rest

theorem AtomToken.kind_ne_newline {t : Token} {v : Value} (h : AtomToken t v) :
    t.kind ≠ .newline := by
  cases h <;> simp_all

theorem ValueTokens.head {ts : List Token} {v : Value} (h : ValueTokens ts v) :
    ∃ t us, ts = t :: us ∧ t.kind ≠ .newline ∧ t.kind ≠ .closeBracket ∧ t.kind ≠ .closeBrace := by
  cases h with
  | atom atom => cases atom <;> exact ⟨_, _, rfl, by simp_all⟩
  | negative kind => exact ⟨_, _, rfl, by simp [kind]⟩
  | list kind => exact ⟨_, _, rfl, by simp [kind]⟩
  | object kind => exact ⟨_, _, rfl, by simp [kind]⟩

theorem KeyToken.kind_ne {t : Token} {k : String} (h : KeyToken t k) :
    t.kind ≠ .newline ∧ t.kind ≠ .closeBrace := by
  cases h <;> simp_all

theorem EntryTokens.head {ts : List Token} {k : String} {v : Value} (h : EntryTokens ts k v) :
    ∃ t us, ts = t :: us ∧ t.kind ≠ .newline ∧ t.kind ≠ .closeBrace := by
  cases h with
  | mk key => exact ⟨_, _, rfl, key.kind_ne⟩

theorem Token.isComment_of_kind {t : Token} (h : t.kind ≠ .comment) : t.isComment = false := by
  unfold Token.isComment
  split
  · next hk => exact absurd hk h
  · rfl

/-- Tokens none of which is a comment. -/
def Uncommented (ts : List Token) : Prop :=
  ∀ t ∈ ts, t.isComment = false

/-- A token that can stand in a literal: neither a comment nor a string with a template. -/
def Token.IsLiteral (t : Token) : Prop :=
  t.kind ≠ .comment ∧ ∀ s, t.kind ≠ .string s true

/-- Tokens all of which can stand in a literal. -/
def Literals (ts : List Token) : Prop :=
  ∀ t ∈ ts, t.IsLiteral

theorem Literals.uncommented {ts : List Token} (h : Literals ts) : Uncommented ts :=
  fun t ht => Token.isComment_of_kind (h t ht).1

theorem Literals.cons {t : Token} {ts : List Token} (ht : t.IsLiteral) (h : Literals ts) :
    Literals (t :: ts) :=
  List.forall_mem_cons.2 ⟨ht, h⟩

theorem Literals.single {t : Token} (ht : t.IsLiteral) : Literals [t] :=
  .cons ht fun _ h => nomatch h

theorem Literals.append {ts us : List Token} (ht : Literals ts) (hu : Literals us) :
    Literals (ts ++ us) :=
  List.forall_mem_append.2 ⟨ht, hu⟩

theorem Token.kind_of_isNewline {t : Token} (h : t.isNewline = true) : t.kind = .newline := by
  unfold Token.isNewline at h
  split at h
  · assumption
  · cases h

theorem Newlines.literals {ns : List Token} (h : Newlines ns) : Literals ns := by
  intro t ht
  simp [Token.IsLiteral, Token.kind_of_isNewline (h t ht)]

theorem AtomToken.isLiteral {t : Token} {v : Value} (h : AtomToken t v) : t.IsLiteral := by
  cases h <;> simp_all [Token.IsLiteral]

theorem KeyToken.isLiteral {t : Token} {k : String} (h : KeyToken t k) : t.IsLiteral := by
  cases h <;> simp_all [Token.IsLiteral]

mutual

theorem ValueTokens.literals {ts : List Token} {v : Value} (h : ValueTokens ts v) :
    Literals ts := by
  cases h with
  | atom atom => exact .single atom.isLiteral
  | negative kind _ blank value =>
    exact .cons (by simp [Token.IsLiteral, kind])
      (blank.literals.append (.single (by simp [Token.IsLiteral, value])))
  | list kind items => exact .cons (by simp [Token.IsLiteral, kind]) items.literals
  | object kind fields => exact .cons (by simp [Token.IsLiteral, kind]) fields.literals
termination_by ts.length
decreasing_by all_goals simp

theorem ItemTokens.literals {ts : List Token} {vs : List Value} (h : ItemTokens ts vs) :
    Literals ts := by
  cases h with
  | close blank kind => exact blank.literals.append (.single (by simp [Token.IsLiteral, kind]))
  | last blank value blank' kind =>
    exact blank.literals.append (value.literals.append
      (blank'.literals.append (.single (by simp [Token.IsLiteral, kind]))))
  | more blank value blank' kind others =>
    exact blank.literals.append (value.literals.append
      (blank'.literals.append (.cons (by simp [Token.IsLiteral, kind]) others.literals)))
termination_by ts.length
decreasing_by all_goals simp; omega

theorem FieldTokens.literals {ts : List Token} {fs : Fields} (h : FieldTokens ts fs) :
    Literals ts := by
  cases h with
  | close blank kind => exact blank.literals.append (.single (by simp [Token.IsLiteral, kind]))
  | last blank entry kind =>
    exact blank.literals.append
      (entry.literals.append (.single (by simp [Token.IsLiteral, kind])))
  | more blank entry kind others =>
    exact blank.literals.append (entry.literals.append
      (.cons (by rcases kind with kind | kind <;> simp [Token.IsLiteral, kind]) others.literals))
termination_by ts.length
decreasing_by all_goals simp; omega

theorem EntryTokens.literals {ts : List Token} {k : String} {v : Value}
    (h : EntryTokens ts k v) : Literals ts := by
  cases h with
  | mk key blank sign blank' value =>
    refine .cons key.isLiteral (blank.literals.append (.cons ?_
      (blank'.literals.append value.literals)))
    rcases sign with sign | sign <;> simp [Token.IsLiteral, sign]
termination_by ts.length
decreasing_by all_goals simp; omega

end

theorem ValueTokens.uncommented {ts : List Token} {v : Value} (h : ValueTokens ts v) :
    Uncommented ts :=
  h.literals.uncommented

theorem EntryTokens.uncommented {ts : List Token} {k : String} {v : Value}
    (h : EntryTokens ts k v) : Uncommented ts :=
  h.literals.uncommented

/-! ## The parser accepts derivations -/

theorem readKey_of_token {t : Token} {k : String} (h : KeyToken t k) (rest : List Token) :
    ∃ lt, readKey (t :: rest) = .ok (k, t, ⟨rest, lt⟩) := by
  obtain ⟨lt, hnext⟩ := nextToken_cons h.kind_ne.1 rest
  refine ⟨lt, ?_⟩
  rw [readKey, hnext]
  cases h with
  | name kind => simp [bind, Except.bind, kind, pure, Except.pure]
  | quoted kind => simp [bind, Except.bind, kind, pure, Except.pure]

theorem readAssignment_append {ns : List Token} {s : Token} (hns : Newlines ns)
    (hs : s.kind = .equals ∨ s.kind = .colon) (rest : List Token) :
    ∃ lt, readAssignment (ns ++ s :: rest) = .ok ⟨rest, lt⟩ := by
  obtain ⟨lt, hnext⟩ := nextToken_append (t := s) hns (by rcases hs with h | h <;> simp [h]) rest
  refine ⟨lt, ?_⟩
  rw [readAssignment, hnext]
  rcases hs with h | h <;> simp [bind, Except.bind, h, pure, Except.pure]

theorem readNegative_append {ns : List Token} {u : Token} {n : Number} (hns : Newlines ns)
    (hu : u.kind = .number n) (rest : List Token) :
    ∃ lt, readNegative (ns ++ u :: rest) = .ok (.number n.neg, ⟨rest, lt⟩) := by
  obtain ⟨lt, hnext⟩ := nextToken_append (t := u) hns (by simp [hu]) rest
  refine ⟨lt, ?_⟩
  rw [readNegative, hnext]
  simp [bind, Except.bind, hu, pure, Except.pure]

theorem readValue_atom {ns : List Token} {t : Token} {v : Value} (hns : Newlines ns)
    (h : AtomToken t v) (rest : List Token) :
    ∃ lt, readValue (ns ++ t :: rest) = .ok (v, ⟨rest, lt⟩) := by
  obtain ⟨lt, hnext⟩ := nextToken_append hns h.kind_ne_newline rest
  refine ⟨lt, ?_⟩
  rw [readValue, hnext]
  cases h <;> simp_all [bind, Except.bind, pure, Except.pure]

theorem readValue_minus {ns ms : List Token} {t u : Token} {n : Number} (hns : Newlines ns)
    (ht : t.kind = .operator) (hminus : t.text = "-") (hms : Newlines ms) (hu : u.kind = .number n)
    (rest : List Token) :
    ∃ lt, readValue (ns ++ t :: (ms ++ u :: rest)) = .ok (.number n.neg, ⟨rest, lt⟩) := by
  obtain ⟨lt, hnext⟩ := nextToken_append (t := t) hns (by simp [ht]) (ms ++ u :: rest)
  obtain ⟨lt', hread⟩ := readNegative_append hms hu rest
  refine ⟨Nat.lt_trans lt' lt, ?_⟩
  rw [readValue, hnext]
  simp [bind, Except.bind, ht, hminus, hread, pure, Except.pure]

theorem readTuple_close {ns : List Token} {t : Token} (hns : Newlines ns)
    (ht : t.kind = .closeBracket) (read : List Value) (rest : List Token) :
    ∃ lt, readTuple read (ns ++ t :: rest) = .ok (read, ⟨rest, lt⟩) := by
  refine ⟨by simp; omega, ?_⟩
  have hskip := skipNewlines_append hns (t := t) (by simp [ht]) rest
  rw [readTuple]
  split
  · next h => simp [hskip] at h
  · next h =>
    rw [hskip] at h
    cases h
    simp [ht]

/-- After an item stand newlines and then a comma or the closing bracket. -/
theorem readTuple_item {ns ms ts rest : List Token} {t c : Token} {v : Value}
    {lt : (ms ++ c :: rest).length < (t :: ts).length} (hns : Newlines ns)
    (ht : t.kind ≠ .newline ∧ t.kind ≠ .closeBracket)
    (hread : readValue (t :: ts) = .ok (v, ⟨ms ++ c :: rest, lt⟩)) (hms : Newlines ms)
    (hc : c.kind ≠ .newline) (read : List Value) :
    ∃ lt' : rest.length < (ns ++ t :: ts).length,
      readTuple read (ns ++ t :: ts) = match c.kind with
        | .comma => (readTuple (read ++ [v]) rest).bind fun r =>
          .ok (r.1, ⟨r.2.1, Nat.lt_trans r.2.2 lt'⟩)
        | .closeBracket => .ok (read ++ [v], ⟨rest, lt'⟩)
        | _ => .error (.atLine .expectedInTuple c.line) := by
  have hskip := skipNewlines_append hns ht.1 ts
  have hskip' := skipNewlines_append hms hc rest
  refine ⟨by simp at lt ⊢; omega, ?_⟩
  rw [readTuple]
  split
  · next h => simp [hskip] at h
  · next h =>
    rw [hskip] at h
    cases h
    split
    · next h => exact absurd h ht.2
    · simp only [Bool.false_eq_true, if_false, bind, Except.bind, hread]
      split
      · next h => simp [hskip'] at h
      · next h =>
        rw [hskip'] at h
        cases h
        cases c.kind <;> rfl

theorem readObject_close {ns : List Token} {t : Token} (hns : Newlines ns)
    (ht : t.kind = .closeBrace) (read : Fields) (rest : List Token) :
    ∃ lt, readObject read (ns ++ t :: rest) = .ok (read, ⟨rest, lt⟩) := by
  refine ⟨by simp; omega, ?_⟩
  have hskip := skipNewlines_append hns (t := t) (by simp [ht]) rest
  rw [readObject]
  split
  · next h => simp [hskip] at h
  · next h =>
    rw [hskip] at h
    cases h
    simp [ht]

/-- After an entry with a new key stands a comma, a newline or the closing brace. -/
theorem readObject_entry {ns ts rest : List Token} {t c : Token} {k : String} {v : Value}
    {lt : (c :: rest).length < (t :: ts).length} (hns : Newlines ns)
    (ht : t.kind ≠ .newline ∧ t.kind ≠ .closeBrace)
    (hread : readEntry (t :: ts) = .ok ((k, v), ⟨c :: rest, lt⟩)) {read : Fields}
    (hk : k ∉ read.map Prod.fst) :
    ∃ lt' : rest.length < (ns ++ t :: ts).length,
      readObject read (ns ++ t :: ts) = match c.kind with
        | .comma | .newline => (readObject (read ++ [(k, v)]) rest).bind fun r =>
          .ok (r.1, ⟨r.2.1, Nat.lt_trans r.2.2 lt'⟩)
        | .closeBrace => .ok (read ++ [(k, v)], ⟨rest, lt'⟩)
        | _ => .error (.atLine (.unexpectedAfterValue c.text k) c.line) := by
  have hskip := skipNewlines_append hns ht.1 ts
  have hnew : (read.any fun e => e.1 == k) = false := by
    rw [List.any_eq_false]
    intro e he
    rw [beq_iff_eq]
    rintro rfl
    exact hk (List.mem_map_of_mem he)
  refine ⟨by simp at lt ⊢; omega, ?_⟩
  rw [readObject]
  split
  · next h => simp [hskip] at h
  · next h =>
    rw [hskip] at h
    cases h
    split
    · next h => exact absurd h ht.2
    · simp only [Bool.false_eq_true, if_false, bind, Except.bind, hread, hnew]
      cases c.kind <;> rfl

mutual

/-- The parser accepts the tokens of a value, after newlines. -/
theorem readValue_of_tokens {ns ts : List Token} {v : Value} (hns : Newlines ns)
    (h : ValueTokens ts v) (rest : List Token) :
    ∃ lt, readValue (ns ++ (ts ++ rest)) = .ok (v, ⟨rest, lt⟩) := by
  cases h with
  | atom atom => exact readValue_atom hns atom rest
  | @negative t u ms n kind minus blank value =>
    rw [List.cons_append, List.append_assoc]
    exact readValue_minus hns kind minus blank value rest
  | @list t ts vs kind items =>
    obtain ⟨lt, hnext⟩ := nextToken_append (t := t) hns (by simp [kind]) (ts ++ rest)
    obtain ⟨lt', hread⟩ := readTuple_of_tokens items [] rest
    refine ⟨Nat.lt_trans lt' lt, ?_⟩
    simp only [List.cons_append]
    rw [readValue, hnext]
    simp [bind, Except.bind, kind, hread, pure, Except.pure]
  | @object t ts fs kind fields distinct =>
    obtain ⟨lt, hnext⟩ := nextToken_append (t := t) hns (by simp [kind]) (ts ++ rest)
    obtain ⟨lt', hread⟩ := readObject_of_tokens fields [] distinct rest
    refine ⟨Nat.lt_trans lt' lt, ?_⟩
    simp only [List.cons_append]
    rw [readValue, hnext]
    simp [bind, Except.bind, kind, hread, pure, Except.pure]
termination_by ts.length
decreasing_by all_goals simp

/-- The parser accepts the tokens of the items of a list. -/
theorem readTuple_of_tokens {ts : List Token} {vs : List Value} (h : ItemTokens ts vs)
    (read : List Value) (rest : List Token) :
    ∃ lt, readTuple read (ts ++ rest) = .ok (read ++ vs, ⟨rest, lt⟩) := by
  cases h with
  | @close ns t blank kind =>
    rw [List.append_nil, List.append_assoc]
    exact readTuple_close blank kind read rest
  | @last ns ts ms t v blank value blank' kind =>
    obtain ⟨lt, hread⟩ := readValue_of_tokens Newlines.nil value (ms ++ t :: rest)
    obtain ⟨t', us, rfl, hne⟩ := value.head
    obtain ⟨lt', heq⟩ := readTuple_item blank ⟨hne.1, hne.2.1⟩ hread blank' (by simp [kind]) read
    have e : ns ++ ((t' :: us) ++ (ms ++ [t])) ++ rest = ns ++ t' :: (us ++ (ms ++ t :: rest)) := by
      simp
    rw [e]
    exact ⟨lt', heq.trans (by rw [kind])⟩
  | @more ns ts ms us t v vs blank value blank' kind others =>
    obtain ⟨lt, hread⟩ := readValue_of_tokens Newlines.nil value (ms ++ t :: (us ++ rest))
    obtain ⟨t', us', rfl, hne⟩ := value.head
    obtain ⟨lt', heq⟩ := readTuple_item blank ⟨hne.1, hne.2.1⟩ hread blank' (by simp [kind]) read
    obtain ⟨lt'', hmore⟩ := readTuple_of_tokens others (read ++ [v]) rest
    have e : ns ++ ((t' :: us') ++ (ms ++ t :: us)) ++ rest =
        ns ++ t' :: (us' ++ (ms ++ t :: (us ++ rest))) := by
      simp
    rw [e]
    refine ⟨Nat.lt_trans lt'' lt', heq.trans ?_⟩
    rw [kind]
    simp [hmore, Except.bind]
termination_by ts.length
decreasing_by all_goals simp; omega

/-- The parser accepts the tokens of the fields of an object whose keys are new. -/
theorem readObject_of_tokens {ts : List Token} {fs : Fields} (h : FieldTokens ts fs)
    (read : Fields) (distinct : ((read ++ fs).map Prod.fst).Nodup) (rest : List Token) :
    ∃ lt, readObject read (ts ++ rest) = .ok (read ++ fs, ⟨rest, lt⟩) := by
  cases h with
  | @close ns t blank kind =>
    rw [List.append_nil, List.append_assoc]
    exact readObject_close blank kind read rest
  | @last ns ts t k v blank entry kind =>
    have hk : k ∉ read.map Prod.fst := by
      rw [List.map_append, List.nodup_append] at distinct
      exact fun hk => distinct.2.2 k hk k (List.mem_cons_self ..) rfl
    obtain ⟨lt, hread⟩ := readEntry_of_tokens entry (t :: rest)
    obtain ⟨t', us, rfl, hne⟩ := entry.head
    obtain ⟨lt', heq⟩ := readObject_entry blank hne hread hk
    have e : ns ++ ((t' :: us) ++ [t]) ++ rest = ns ++ t' :: (us ++ t :: rest) := by
      simp
    rw [e]
    exact ⟨lt', heq.trans (by rw [kind])⟩
  | @more ns ts us t k v fs blank entry kind others =>
    have hk : k ∉ read.map Prod.fst := by
      rw [List.map_append, List.nodup_append] at distinct
      exact fun hk => distinct.2.2 k hk k (List.mem_cons_self ..) rfl
    obtain ⟨lt, hread⟩ := readEntry_of_tokens entry (t :: (us ++ rest))
    obtain ⟨t', us', rfl, hne⟩ := entry.head
    obtain ⟨lt', heq⟩ := readObject_entry blank hne hread hk
    have distinct' : (((read ++ [(k, v)]) ++ fs).map Prod.fst).Nodup := by
      simpa using distinct
    obtain ⟨lt'', hmore⟩ := readObject_of_tokens others (read ++ [(k, v)]) distinct' rest
    have e : ns ++ ((t' :: us') ++ t :: us) ++ rest = ns ++ t' :: (us' ++ t :: (us ++ rest)) := by
      simp
    rw [e]
    refine ⟨Nat.lt_trans lt'' lt', heq.trans ?_⟩
    rcases kind with kind | kind <;> simp [kind, hmore, Except.bind]
termination_by ts.length
decreasing_by all_goals subst_vars; simp; omega

/-- The parser accepts the tokens of an entry. -/
theorem readEntry_of_tokens {ts : List Token} {k : String} {v : Value} (h : EntryTokens ts k v)
    (rest : List Token) : ∃ lt, readEntry (ts ++ rest) = .ok ((k, v), ⟨rest, lt⟩) := by
  cases h with
  | @mk t s ns ms ts k v key blank sign blank' value =>
    have e : t :: (ns ++ s :: (ms ++ ts)) ++ rest = t :: (ns ++ s :: (ms ++ (ts ++ rest))) := by
      simp
    rw [e]
    obtain ⟨lt, hkey⟩ := readKey_of_token key (ns ++ s :: (ms ++ (ts ++ rest)))
    obtain ⟨lt', hsign⟩ := readAssignment_append blank sign (ms ++ (ts ++ rest))
    obtain ⟨lt'', hread⟩ := readValue_of_tokens blank' value rest
    refine ⟨Nat.lt_trans lt'' (Nat.lt_trans lt' lt), ?_⟩
    rw [readEntry, hkey]
    simp [bind, Except.bind, hsign, hread, pure, Except.pure]
termination_by ts.length
decreasing_by all_goals simp; omega

end

end InstanceInventory.Literal

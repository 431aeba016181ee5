import InstanceInventory.Proofs.Literal.Inverse

/-! # Derivations of literals

* `ValueTree`, `EntryTree`, `LiteralTree`: the derivations of values, entries and whole literals in
  the grammar of the language, each with the tokens that it derives.
* `ValueTree.valueTokens`: what a derivation of a value derives writes the value.
* `ValueTokens.exists_tree`: the tokens that write a value have a derivation.
-/

namespace InstanceInventory.Literal
set_option autoImplicit false

/-! ## Derivations -/

/-- A token of a kind. -/
abbrev Mark (k : Token.Kind) : Type :=
  { t : Token // t.kind = k }

/-- Any number of newlines. -/
abbrev Blank : Type :=
  { ns : List Token // Newlines ns }

/-- A token of one of some kinds and any number of newlines. -/
structure Separator (among : Token.Kind → Prop) where
  mark : Token
  kind : among mark.kind
  blank : Blank

/-- What separates the items of a list: a comma. -/
abbrev ItemSeparator : Type :=
  Separator (· = .comma)

/-- What separates the entries of an object: a comma or one newline. -/
abbrev EntrySeparator : Type :=
  Separator fun k => k = .comma ∨ k = .newline

mutual

/-- A derivation of a value: a single token, a minus sign before a number, or brackets or braces
around the parts. -/
inductive ValueTree : Value → Type
  | atom {v : Value} (t : Token) (writes : AtomToken t v) : ValueTree v
  | negative {n : Number} (minus : Mark .operator) (sign : minus.1.text = "-") (blank : Blank)
    (number : Mark (.number n)) : ValueTree (.number n.neg)
  | list {vs : List Value} (opening : Mark .openBracket) (blank : Blank) (items : ItemsTree vs)
    (closing : Mark .closeBracket) : ValueTree (.list vs)
  | object {fs : Fields} (opening : Mark .openBrace) (blank : Blank) (fields : FieldsTree fs)
    (closing : Mark .closeBrace) (distinct : (fs.map Prod.fst).Nodup) : ValueTree (.object fs)

/-- A derivation of the items of a list: nothing, or a first item and later ones. -/
inductive ItemsTree : List Value → Type
  | empty : ItemsTree []
  | filled {v : Value} {vs : List Value} (first : ValueTree v) (blank : Blank)
    (later : LaterItems vs) : ItemsTree (v :: vs)

/-- A derivation of the items after the first, each after a separator; a separator may follow the
last one. -/
inductive LaterItems : List Value → Type
  | stop (trailing : Option ItemSeparator) : LaterItems []
  | more {v : Value} {vs : List Value} (separator : ItemSeparator) (value : ValueTree v)
    (blank : Blank) (later : LaterItems vs) : LaterItems (v :: vs)

/-- A derivation of the entries of an object: nothing, or a first entry and later ones. -/
inductive FieldsTree : Fields → Type
  | empty : FieldsTree []
  | filled {k : String} {v : Value} {fs : Fields} (first : EntryTree k v)
    (later : LaterFields fs) : FieldsTree ((k, v) :: fs)

/-- A derivation of the entries after the first, each after a separator; a separator may follow the
last one. -/
inductive LaterFields : Fields → Type
  | stop (trailing : Option EntrySeparator) : LaterFields []
  | more {k : String} {v : Value} {fs : Fields} (separator : EntrySeparator)
    (entry : EntryTree k v) (later : LaterFields fs) : LaterFields ((k, v) :: fs)

/-- A derivation of an entry: a key, a sign and a value. -/
inductive EntryTree : String → Value → Type
  | mk {k : String} {v : Value} (key : Token) (writes : KeyToken key k) (blank : Blank) (sign : Token)
    (kind : sign.kind = .equals ∨ sign.kind = .colon) (blank' : Blank) (value : ValueTree v) :
    EntryTree k v

end

/-- A derivation of a literal: a value with newlines around it. -/
structure LiteralTree (v : Value) where
  before : Blank
  value : ValueTree v
  after : Blank

/-! ## The tokens that are derived -/

def Separator.tokens {among : Token.Kind → Prop} (s : Separator among) : List Token :=
  s.mark :: s.blank.1

/-- The tokens of a separator that may be left out. -/
def trailingTokens {among : Token.Kind → Prop} : Option (Separator among) → List Token
  | none => []
  | some s => s.tokens

mutual

def ValueTree.tokens {v : Value} : ValueTree v → List Token
  | .atom t _ => [t]
  | .negative minus _ blank number => minus.1 :: (blank.1 ++ [number.1])
  | .list opening blank items closing => opening.1 :: (blank.1 ++ (items.tokens ++ [closing.1]))
  | .object opening blank fields closing _ =>
    opening.1 :: (blank.1 ++ (fields.tokens ++ [closing.1]))

def ItemsTree.tokens {vs : List Value} : ItemsTree vs → List Token
  | .empty => []
  | .filled first blank later => first.tokens ++ (blank.1 ++ later.tokens)

def LaterItems.tokens {vs : List Value} : LaterItems vs → List Token
  | .stop trailing => trailingTokens trailing
  | .more separator value blank later =>
    separator.tokens ++ (value.tokens ++ (blank.1 ++ later.tokens))

def FieldsTree.tokens {fs : Fields} : FieldsTree fs → List Token
  | .empty => []
  | .filled first later => first.tokens ++ later.tokens

def LaterFields.tokens {fs : Fields} : LaterFields fs → List Token
  | .stop trailing => trailingTokens trailing
  | .more separator entry later => separator.tokens ++ (entry.tokens ++ later.tokens)

def EntryTree.tokens {k : String} {v : Value} : EntryTree k v → List Token
  | .mk key _ blank sign _ blank' value => key :: (blank.1 ++ sign :: (blank'.1 ++ value.tokens))

end

def LiteralTree.tokens {v : Value} (d : LiteralTree v) : List Token :=
  d.before.1 ++ (d.value.tokens ++ d.after.1)

/-! ## What has a derivation is written by its tokens -/

mutual

/-- What a derivation of a value derives writes the value. -/
theorem ValueTree.valueTokens {v : Value} : (d : ValueTree v) → ValueTokens d.tokens v
  | .atom _ writes => .atom writes
  | .negative minus sign blank number => .negative minus.2 sign blank.2 number.2
  | .list opening blank items closing =>
    .list opening.2 (items.itemTokens blank.2 closing.2)
  | .object opening blank fields closing distinct =>
    .object opening.2 (fields.fieldTokens blank.2 closing.2) distinct

theorem ItemsTree.itemTokens {vs : List Value} {ns : List Token} {c : Token} (hns : Newlines ns)
    (hc : c.kind = .closeBracket) : (d : ItemsTree vs) → ItemTokens (ns ++ (d.tokens ++ [c])) vs
  | .empty => .close hns hc
  | .filled first blank later => by
    have h := later.itemTokens hns first.valueTokens blank.2 hc
    simpa [ItemsTree.tokens] using h

theorem LaterItems.itemTokens {vs : List Value} {ns ts ms : List Token} {v : Value} {c : Token}
    (hns : Newlines ns) (hts : ValueTokens ts v) (hms : Newlines ms) (hc : c.kind = .closeBracket) :
    (d : LaterItems vs) → ItemTokens (ns ++ (ts ++ (ms ++ (d.tokens ++ [c])))) (v :: vs)
  | .stop none => .last hns hts hms hc
  | .stop (some s) => .more hns hts hms s.kind (.close s.blank.2 hc)
  | .more separator value blank later => by
    have h := later.itemTokens separator.blank.2 value.valueTokens blank.2 hc
    have hmore := ItemTokens.more hns hts hms separator.kind h
    simpa [LaterItems.tokens, Separator.tokens] using hmore

theorem FieldsTree.fieldTokens {fs : Fields} {ns : List Token} {c : Token} (hns : Newlines ns)
    (hc : c.kind = .closeBrace) : (d : FieldsTree fs) → FieldTokens (ns ++ (d.tokens ++ [c])) fs
  | .empty => .close hns hc
  | .filled first later => by
    have h := later.fieldTokens hns first.entryTokens hc
    simpa [FieldsTree.tokens] using h

theorem LaterFields.fieldTokens {fs : Fields} {ns ts : List Token} {k : String} {v : Value}
    {c : Token} (hns : Newlines ns) (hts : EntryTokens ts k v) (hc : c.kind = .closeBrace) :
    (d : LaterFields fs) → FieldTokens (ns ++ (ts ++ (d.tokens ++ [c]))) ((k, v) :: fs)
  | .stop none => .last hns hts hc
  | .stop (some s) => .more hns hts s.kind (.close s.blank.2 hc)
  | .more separator entry later => by
    have h := later.fieldTokens separator.blank.2 entry.entryTokens hc
    have hmore := FieldTokens.more hns hts separator.kind h
    simpa [LaterFields.tokens, Separator.tokens] using hmore

theorem EntryTree.entryTokens {k : String} {v : Value} :
    (d : EntryTree k v) → EntryTokens d.tokens k v
  | .mk _ writes blank _ kind blank' value =>
    .mk writes blank.2 kind blank'.2 value.valueTokens

end

/-! ## What is written by its tokens has a derivation -/

def ItemsTree.following {vs : List Value} (s : ItemSeparator) : ItemsTree vs → LaterItems vs
  | .empty => .stop (some s)
  | .filled first blank later => .more s first blank later

theorem ItemsTree.tokens_following {vs : List Value} (s : ItemSeparator) (d : ItemsTree vs) :
    (d.following s).tokens = s.tokens ++ d.tokens := by
  cases d with
  | empty => exact (List.append_nil _).symm
  | filled first blank later => rfl

def FieldsTree.following {fs : Fields} (s : EntrySeparator) : FieldsTree fs → LaterFields fs
  | .empty => .stop (some s)
  | .filled first later => .more s first later

theorem FieldsTree.tokens_following {fs : Fields} (s : EntrySeparator) (d : FieldsTree fs) :
    (d.following s).tokens = s.tokens ++ d.tokens := by
  cases d with
  | empty => exact (List.append_nil _).symm
  | filled first later => rfl

mutual

theorem ValueTokens.exists_tree {ts : List Token} {v : Value} (h : ValueTokens ts v) :
    ∃ d : ValueTree v, d.tokens = ts := by
  cases h with
  | @atom t v atom => exact ⟨.atom t atom, rfl⟩
  | @negative t u ns n kind minus blank value =>
    exact ⟨.negative ⟨t, kind⟩ minus ⟨ns, blank⟩ ⟨u, value⟩, rfl⟩
  | @list t ts vs kind items =>
    obtain ⟨blank, d, c, rfl⟩ := items.exists_tree
    exact ⟨.list ⟨t, kind⟩ blank d c, rfl⟩
  | @object t ts fs kind fields distinct =>
    obtain ⟨blank, d, c, rfl⟩ := fields.exists_tree
    exact ⟨.object ⟨t, kind⟩ blank d c distinct, rfl⟩
termination_by ts.length
decreasing_by all_goals simp

theorem ItemTokens.exists_tree {ts : List Token} {vs : List Value} (h : ItemTokens ts vs) :
    ∃ (blank : Blank) (d : ItemsTree vs) (c : Mark .closeBracket),
      ts = blank.1 ++ (d.tokens ++ [c.1]) := by
  cases h with
  | @close ns t blank kind => exact ⟨⟨ns, blank⟩, .empty, ⟨t, kind⟩, rfl⟩
  | @last ns ts ms t v blank value blank' kind =>
    obtain ⟨d, rfl⟩ := value.exists_tree
    refine ⟨⟨ns, blank⟩, .filled d ⟨ms, blank'⟩ (.stop none), ⟨t, kind⟩, ?_⟩
    simp [ItemsTree.tokens, LaterItems.tokens, trailingTokens]
  | @more ns ts ms us t v vs blank value blank' kind others =>
    obtain ⟨d, rfl⟩ := value.exists_tree
    obtain ⟨b, items, c, rfl⟩ := others.exists_tree
    refine ⟨⟨ns, blank⟩, .filled d ⟨ms, blank'⟩ (items.following ⟨t, kind, b⟩), c, ?_⟩
    simp [ItemsTree.tokens, ItemsTree.tokens_following, Separator.tokens]
termination_by ts.length
decreasing_by all_goals simp; omega

theorem FieldTokens.exists_tree {ts : List Token} {fs : Fields} (h : FieldTokens ts fs) :
    ∃ (blank : Blank) (d : FieldsTree fs) (c : Mark .closeBrace),
      ts = blank.1 ++ (d.tokens ++ [c.1]) := by
  cases h with
  | @close ns t blank kind => exact ⟨⟨ns, blank⟩, .empty, ⟨t, kind⟩, rfl⟩
  | @last ns ts t k v blank entry kind =>
    obtain ⟨d, rfl⟩ := entry.exists_tree
    refine ⟨⟨ns, blank⟩, .filled d (.stop none), ⟨t, kind⟩, ?_⟩
    simp [FieldsTree.tokens, LaterFields.tokens, trailingTokens]
  | @more ns ts us t k v fs blank entry kind others =>
    obtain ⟨d, rfl⟩ := entry.exists_tree
    obtain ⟨b, fields, c, rfl⟩ := others.exists_tree
    refine ⟨⟨ns, blank⟩, .filled d (fields.following ⟨t, kind, b⟩), c, ?_⟩
    simp [FieldsTree.tokens, FieldsTree.tokens_following, Separator.tokens]
termination_by ts.length
decreasing_by all_goals subst_vars; simp; omega

theorem EntryTokens.exists_tree {ts : List Token} {k : String} {v : Value}
    (h : EntryTokens ts k v) : ∃ d : EntryTree k v, d.tokens = ts := by
  cases h with
  | @mk t s ns ms ts k v key blank sign blank' value =>
    obtain ⟨d, rfl⟩ := value.exists_tree
    exact ⟨.mk t key ⟨ns, blank⟩ s sign ⟨ms, blank'⟩ d, rfl⟩
termination_by ts.length
decreasing_by all_goals simp; omega

end

end InstanceInventory.Literal

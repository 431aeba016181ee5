import InstanceInventory.Proofs.Document.Template
import InstanceInventory.Proofs.Record.Codec

/-! # Written entries as blocks

* `ValueTokens.nested`: the tokens that write a value are nested.
* `exists_written`: an entry with a plain object, as it is written, is a block of its key.
* `exists_recordBlock`: the block of a record is a block.
-/

namespace InstanceInventory
set_option autoImplicit false

namespace Literal
open Document

/-! ## Nesting of values -/

/-- A kind that neither opens nor closes anything. -/
def IsFlat (k : Token.Kind) : Prop :=
  k.isOpener = false ∧ k.isCloser = false

theorem AtomToken.isFlat {t : Token} {v : Value} (h : AtomToken t v) : IsFlat t.kind := by
  cases h with
  | quoted kind => rw [kind]; exact ⟨rfl, rfl⟩
  | heredoc kind => rw [kind]; exact ⟨rfl, rfl⟩
  | number kind => rw [kind]; exact ⟨rfl, rfl⟩
  | yes kind _ => rw [kind]; exact ⟨rfl, rfl⟩
  | no kind _ => rw [kind]; exact ⟨rfl, rfl⟩
  | null kind _ => rw [kind]; exact ⟨rfl, rfl⟩

theorem KeyToken.isFlat {t : Token} {k : String} (h : KeyToken t k) : IsFlat t.kind := by
  cases h with
  | name kind => rw [kind]; exact ⟨rfl, rfl⟩
  | quoted kind => rw [kind]; exact ⟨rfl, rfl⟩

theorem isFlat_of_separates {k : Token.Kind} (h : k = .comma ∨ k = .newline) : IsFlat k := by
  rcases h with rfl | rfl <;> exact ⟨rfl, rfl⟩

theorem isFlat_of_assigns {k : Token.Kind} (h : k = .equals ∨ k = .colon) : IsFlat k := by
  rcases h with rfl | rfl <;> exact ⟨rfl, rfl⟩

theorem nested_cons {t : Token} {ts : List Token} (ht : IsFlat t.kind)
    (h : Nested (ts.map Token.kind)) : Nested ((t :: ts).map Token.kind) :=
  .plain ht.1 ht.2 h

theorem nested_single {t : Token} (ht : IsFlat t.kind) : Nested ([t].map Token.kind) :=
  .plain ht.1 ht.2 .nil

theorem nested_append {ts us : List Token} (ht : Nested (ts.map Token.kind))
    (hu : Nested (us.map Token.kind)) : Nested ((ts ++ us).map Token.kind) := by
  rw [List.map_append]
  exact ht.append hu

/-- Tokens that are nested up to a last one of a kind. -/
def NestedUpTo (k : Token.Kind) (ts : List Token) : Prop :=
  ∃ us t, ts = us ++ [t] ∧ t.kind = k ∧ Nested (us.map Token.kind)

namespace NestedUpTo

variable {k l : Token.Kind} {t : Token} {ts us : List Token}

theorem close (ht : t.kind = k) : NestedUpTo k [t] :=
  ⟨[], t, rfl, ht, .nil⟩

theorem append (hts : Nested (ts.map Token.kind)) (h : NestedUpTo k us) : NestedUpTo k (ts ++ us) := by
  obtain ⟨vs, t, rfl, ht, hvs⟩ := h
  exact ⟨ts ++ vs, t, by simp, ht, nested_append hts hvs⟩

theorem cons (ht : IsFlat t.kind) (h : NestedUpTo k us) : NestedUpTo k (t :: us) :=
  append (nested_single ht) h

theorem group (pair : closes k l = true) (ht : t.kind = k) (h : NestedUpTo l ts) :
    Nested ((t :: ts).map Token.kind) := by
  obtain ⟨us, u, rfl, hu, hus⟩ := h
  rw [List.map_cons, List.map_append, List.map_singleton, ht, hu]
  exact .single pair hus

end NestedUpTo

theorem Newlines.nested {ns : List Token} (h : Newlines ns) : Nested (ns.map Token.kind) := by
  induction ns with
  | nil => exact .nil
  | cons t ns ih =>
    have ht : t.kind = .newline := by
      have hnewline := h t (List.mem_cons_self ..)
      rcases isSpacing_kind (t := t) (by rw [isSpacing, hnewline]; rfl) with ht | ht
      · exact ht
      · rw [Token.isNewline, ht] at hnewline
        cases hnewline
    exact nested_cons (isFlat_of_separates (.inr ht)) (ih fun u hu => h u (List.mem_cons_of_mem t hu))

mutual

theorem ValueTokens.nested {ts : List Token} {v : Value} (h : ValueTokens ts v) :
    Nested (ts.map Token.kind) := by
  cases h with
  | atom atom => exact nested_single atom.isFlat
  | negative kind _ blank value =>
    exact nested_cons (by rw [kind]; exact ⟨rfl, rfl⟩) (nested_append blank.nested
      (nested_single (by rw [value]; exact ⟨rfl, rfl⟩)))
  | list kind items => exact items.nested.group rfl kind
  | object kind fields _ => exact fields.nested.group rfl kind
termination_by ts.length
decreasing_by all_goals simp

theorem ItemTokens.nested {ts : List Token} {vs : List Value} (h : ItemTokens ts vs) :
    NestedUpTo .closeBracket ts := by
  cases h with
  | close blank kind => exact .append blank.nested (.close kind)
  | last blank value blank' kind =>
    exact .append blank.nested (.append value.nested (.append blank'.nested (.close kind)))
  | more blank value blank' kind others =>
    exact .append blank.nested (.append value.nested (.append blank'.nested
      (.cons (isFlat_of_separates (.inl kind)) others.nested)))
termination_by ts.length
decreasing_by all_goals simp; omega

theorem FieldTokens.nested {ts : List Token} {fs : Fields} (h : FieldTokens ts fs) :
    NestedUpTo .closeBrace ts := by
  cases h with
  | close blank kind => exact .append blank.nested (.close kind)
  | last blank entry kind => exact .append blank.nested (.append entry.nested (.close kind))
  | more blank entry kind others =>
    exact .append blank.nested (.append entry.nested
      (.cons (isFlat_of_separates kind) others.nested))
termination_by ts.length
decreasing_by all_goals simp; omega

theorem EntryTokens.nested {ts : List Token} {k : String} {v : Value} (h : EntryTokens ts k v) :
    Nested (ts.map Token.kind) := by
  cases h with
  | mk key blank sign blank' value =>
    exact nested_cons key.isFlat (nested_append blank.nested
      (nested_cons (isFlat_of_assigns sign) (nested_append blank'.nested value.nested)))
termination_by ts.length
decreasing_by all_goals simp; omega

end

end Literal

namespace Document
open Literal

/-! ## Written entries -/

theorem KeyToken.keyOf? {t : Token} {k : String} (h : KeyToken t k) : keyOf? t = some k := by
  cases h with
  | name kind => rw [Document.keyOf?, kind]
  | quoted kind => rw [Document.keyOf?, kind]

theorem valueChars_object (level : Int) (fs : Fields) :
    ∃ cs, valueChars level (.object fs) = cs ++ ['\x7d'] := by
  unfold valueChars
  split
  · exact ⟨['\x7b'], rfl⟩
  · refine ⟨'\x7b' :: '\n' :: (['\n'].intercalate (rowLines (level + 1) []
      (rows (level + 1) fs)) ++ '\n' :: indent level), ?_⟩
    simp

/-- Characters between tokens at the end of a text that a brace ends. -/
theorem gaps_eq_nil {xs ys gaps : List Char} (hgaps : ∀ c ∈ gaps, isGap c = true)
    (h : xs ++ gaps = ys ++ ['\x7d']) : gaps = [] := by
  cases hlast : gaps.getLast? with
  | none => exact List.getLast?_eq_none_iff.1 hlast
  | some c =>
    have hc : (xs ++ gaps).getLast? = some c := by
      rw [List.getLast?_append, hlast]
      rfl
    rw [h, List.getLast?_concat] at hc
    cases hc
    exact absurd (hgaps _ (List.mem_of_getLast? hlast)) (by decide)

/-- Pieces without tokens are characters between tokens. -/
theorem gaps_of_tokensAfter {pre after : List Char} {ps : List Piece} (hlexed : Lexed after ps)
    (h : tokensAfter pre ps = []) :
    ∃ gaps : List Char, ps = gaps.map .gap ∧ ∀ c ∈ gaps, isGap c = true := by
  induction ps generalizing pre with
  | nil => exact ⟨[], rfl, fun _ hc => nomatch hc⟩
  | cons p ps ih =>
    cases hlexed with
    | @gap c _ blank rest =>
      have e : Piece.gap c :: ps = [c].map .gap ++ ps := rfl
      rw [e, tokensAfter_append, tokensAfter_gaps, List.nil_append] at h
      obtain ⟨gaps, rfl, hgaps⟩ := ih rest h
      exact ⟨c :: gaps, rfl, List.forall_mem_cons.2 ⟨blank, hgaps⟩⟩
    | token _ _ _ =>
      rw [tokensAfter_cons] at h
      cases h

theorem exists_written (level : Int) (k : String) (fs : Fields) (hfs : (Value.object fs).IsPlain) :
    ∃ b : Block, b.key = k ∧ b.text = renderEntry level k (.object fs) ∧ b.Settled := by
  obtain ⟨ps, hchars, hlexed, htokens⟩ := (writes_entry level k (.object fs) hfs
    (Delimited.cons (c := '\n') rfl [])).reads
  have htokens : LineTokens (tokensAfter [] ps) k (.object fs) := htokens 0 0
  obtain ⟨cs, hcs⟩ := valueChars_object level fs
  generalize hts : tokensAfter [] ps = ts at htokens
  cases htokens with
  | @mk key sign us _ _ hkey hsign hvalue =>
    cases hvalue with
    | atom atom => cases atom
    | @object opening us _ hopening hfields _ =>
      obtain ⟨inside, closing, rfl, hclosing, hinside⟩ := hfields.nested
      let i : MapItem := ⟨k, key, sign, opening, inside, closing, none, []⟩
      have hi : i.Valid := ⟨KeyToken.keyOf? hkey, hsign, hopening, hinside, hclosing,
        (fun _ h => nomatch h), (fun _ h => nomatch h)⟩
      obtain ⟨gaps, c, rest, rfl, hgaps, hcore, hcomma, -, -, hrest⟩ :=
        hi.exists_core [] hlexed hts
      obtain ⟨gaps', rfl, hgaps'⟩ := gaps_of_tokensAfter hlexed.right.right hrest
      have hlast : gaps ++ charsOf c.pieces ++ gaps' =
          indent level ++ keyChars k ++ [' ', '=', ' '] ++ cs ++ ['\x7d'] := by
        rw [List.append_assoc _ cs, ← hcs, ← hchars]
        simp
      obtain rfl := gaps_eq_nil hgaps' hlast
      refine ⟨⟨k, [newlinePiece], gaps.map .gap, c, []⟩, rfl, ?_, ?_, fun after => ?_⟩
      · rw [Block.text, Block.kept, renderEntry, ← hchars]
        rfl
      · exact ⟨.newline (.blank hgaps), hcore, .none⟩
      · exact hlexed.barrier barrier_newline

theorem exists_recordBlock (r : InstanceRecord) (level : Int) :
    ∃ b : Block, b.key = r.key ∧ b.text = r.block level ∧ b.Settled :=
  exists_written level r.key r.draft.attributes r.isPlain_attributes

end Document
end InstanceInventory

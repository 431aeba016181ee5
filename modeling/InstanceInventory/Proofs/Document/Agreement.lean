import InstanceInventory.Proofs.Document.Passage
import InstanceInventory.Proofs.Document.Written
import InstanceInventory.Proofs.Literal.Inverse

/-! # Two readings of a map

* `isTight`: nothing stands between a key and its sign or between a minus sign and its number.
* `exists_value`: the scan of a region and the grammar see the same end of a value.
* `Passing`: the scan of a region, at some of its tokens.
* `Passing.entry`: what the scan cuts out for an entry is read back as this entry.
* `entries_agree`: the entries of a map are the fields that the map is read as.
-/

namespace InstanceInventory.Document
set_option autoImplicit false
open Literal
variable {text : String} {cs : List Char} {before inner after ts us xs ys : List Token}
  {t u : Token} {comment : Option Nat} {k : String} {v : Value}

/-! ## Tight texts -/

/-- Tokens that belong together: a key and the sign after it, or a minus sign and its number. -/
def belong (t u : Token) : Bool :=
  (keyOf? t).isSome && isAssignment u ||
    decide (t.kind = .operator) && t.text == "-" && (u.kind matches .number _)

/-- Whether nothing stands between tokens that belong together, as far as they stand at depth
zero. -/
def isTight (depth : Int) : List Token → Bool
  | [] => true
  | t :: ts =>
    (depth != 0 || !(ts.find? isSubstance).any (belong t) || ts.head? == ts.find? isSubstance) &&
      isTight (depthAfter depth t) ts

theorem isTight_append {depth : Int} (h : isTight depth (ts ++ us) = true) :
    isTight (depthFrom depth ts) us = true := by
  induction ts generalizing depth with
  | nil => exact h
  | cons t ts ih =>
    rw [List.cons_append, isTight, Bool.and_eq_true] at h
    exact ih h.2

theorem eq_nil_of_isTight {gap : List Token} (h : isTight 0 (t :: (gap ++ u :: us)) = true)
    (hgap : ∀ w ∈ gap, isSubstance w = false) (hu : isSubstance u = true)
    (hbelong : belong t u = true) : gap = [] := by
  have hfind : (gap ++ u :: us).find? isSubstance = some u := by
    rw [List.find?_append, List.find?_eq_none.2 (by simpa using hgap), List.find?_cons_of_pos hu]
    rfl
  rw [isTight, hfind, Bool.and_eq_true] at h
  cases gap with
  | nil => rfl
  | cons w gap =>
    obtain rfl : w = u := by simpa [hbelong] using h.1
    rw [hgap w (List.mem_cons_self ..)] at hu
    cases hu

/-! ## Comments among tokens -/

/-- Tokens without the comments. -/
def withoutComments (ts : List Token) : List Token :=
  ts.filter fun t => !t.isComment

@[simp] theorem withoutComments_append (ts us : List Token) :
    withoutComments (ts ++ us) = withoutComments ts ++ withoutComments us :=
  List.filter_append ts us

theorem withoutComments_cons (ht : t.kind ≠ .comment) (ts : List Token) :
    withoutComments (t :: ts) = t :: withoutComments ts :=
  List.filter_cons_of_pos (by rw [Token.isComment_of_kind ht]; rfl)

theorem mem_withoutComments (ht : t ∈ ts) (hkind : t.kind ≠ .comment) : t ∈ withoutComments ts :=
  List.mem_filter.2 ⟨ht, by rw [Token.isComment_of_kind hkind]; rfl⟩

/-- What stands before and after a token among tokens without comments stands before and after it
with comments. -/
theorem exists_of_withoutComments (h : withoutComments ts = xs ++ t :: ys) :
    ∃ us ws, ts = us ++ t :: ws ∧ withoutComments us = xs ∧ withoutComments ws = ys := by
  obtain ⟨us, rest, rfl, hus, hrest⟩ := List.filter_eq_append_iff.1 h
  obtain ⟨gap, ws, rfl, hgap, -, hws⟩ := List.filter_eq_cons_iff.1 hrest
  refine ⟨us ++ gap, ws, by simp, ?_, hws⟩
  rw [withoutComments_append, withoutComments, hus, withoutComments,
    List.filter_eq_nil_iff.2 hgap, List.append_nil]

theorem isSpacing_of_withoutComments (h : Newlines (withoutComments ts)) :
    ∀ t ∈ ts, isSpacing t = true := by
  intro t ht
  by_cases hkind : t.kind = .comment
  · simp [isSpacing, Token.isComment, hkind]
  · rw [isSpacing, h t (mem_withoutComments ht hkind), Bool.true_or]

theorem isSubstance_eq (t : Token) : isSubstance t = !isSpacing t := by
  unfold isSubstance isSpacing Token.isNewline Token.isComment
  cases t.kind <;> rfl

theorem isSubstance_of_isSpacing (h : isSpacing t = true) : isSubstance t = false := by
  rw [isSubstance_eq, h]
  rfl

theorem newlines_withoutComments (h : ∀ t ∈ ts, isSpacing t = true) :
    Newlines (withoutComments ts) := by
  intro t ht
  obtain ⟨ht, hcomment⟩ := List.mem_filter.1 ht
  have hspacing := h t ht
  rw [isSpacing, Bool.or_eq_true] at hspacing
  refine hspacing.resolve_right fun hc => ?_
  rw [hc] at hcomment
  cases hcomment

/-- Comments do not touch the nesting of brackets. -/
theorem nested_of_withoutComments {ks : List Token.Kind} (h : Nested ks)
    (hts : (withoutComments ts).map Token.kind = ks) : Nested (ts.map Token.kind) := by
  have hfree : ∀ ws : List Token, withoutComments ws = [] → Nested (ws.map Token.kind) := by
    intro ws
    induction ws with
    | nil => exact fun _ => .nil
    | cons w ws ih =>
      intro hws
      have hw : w.kind = .comment := by
        by_contra hw
        rw [withoutComments_cons hw] at hws
        cases hws
      have hrest : withoutComments ws = [] :=
        List.filter_eq_nil_iff.2 fun t ht =>
          List.filter_eq_nil_iff.1 hws t (List.mem_cons_of_mem w ht)
      exact nested_cons (by rw [hw]; exact ⟨rfl, rfl⟩) (ih hrest)
  induction h generalizing ts with
  | nil => exact hfree ts (List.map_eq_nil_iff.1 hts)
  | plain opener closer _ ih =>
    obtain ⟨t, ys, hfilter, rfl, hys⟩ := List.map_eq_cons_iff.1 hts
    obtain ⟨us, ws, rfl, hus, hws⟩ := exists_of_withoutComments (hfilter.trans (List.nil_append _).symm)
    exact nested_append (hfree us hus) (nested_cons ⟨opener, closer⟩ (ih (hws ▸ hys)))
  | @group k l ks ls pair _ _ ih ih' =>
    obtain ⟨t, rest, hfilter, hk, hrest⟩ := List.map_eq_cons_iff.1 hts
    obtain ⟨xs, rest, rfl, hxs, hrest⟩ := List.map_eq_append_iff.1 hrest
    obtain ⟨u, ys, rfl, hl, hys⟩ := List.map_eq_cons_iff.1 hrest
    obtain ⟨us, ws, rfl, hus, hws⟩ := exists_of_withoutComments (hfilter.trans (List.nil_append _).symm)
    obtain ⟨inside, ws, rfl, hinside, hws⟩ := exists_of_withoutComments hws
    refine nested_append (hfree us hus) ?_
    rw [List.map_cons, List.map_append, List.map_cons, hk, hl]
    exact .group pair (ih (hinside ▸ hxs)) (ih' (hws ▸ hys))

/-! ## Values -/

/-- What may stand after a value among tokens without comments: nothing, or a comma or a newline. -/
def MayEnd (xs : List Token) : Prop :=
  ∀ t ∈ xs.head?, t.kind = .comma ∨ t.kind = .newline

theorem endsValue_of_mayEnd (h : MayEnd (withoutComments ts)) :
    ∀ t ∈ ts.head?, endsValue t = true := by
  cases ts with
  | nil => exact fun _ ht => nomatch ht
  | cons t ts =>
    intro u hu
    obtain rfl : t = u := by simpa using hu
    by_cases hkind : t.kind = .comment
    · simp [endsValue, hkind]
    · rw [withoutComments_cons hkind] at h
      rcases h t rfl with hkind | hkind <;> simp [endsValue, hkind]

/-- A value does not begin before its first token of substance. -/
theorem valueEnd_spacing (h : ∀ t ∈ ts, isSpacing t = true) (passed : Nat) (us : List Token) :
    valueEnd 0 none passed (ts ++ us) = valueEnd 0 none (passed + ts.length) us := by
  induction ts generalizing passed with
  | nil => rfl
  | cons t ts ih =>
    have hspacing := h t (List.mem_cons_self ..)
    have hdepth : depthAfter 0 t = 0 := by
      rcases isSpacing_kind hspacing with hkind | hkind <;>
        exact depthAfter_of_plain (by rw [hkind]; rfl) (by rw [hkind]; rfl)
    rw [List.cons_append, valueEnd, if_neg (by simp), hdepth, isSubstance_of_isSpacing hspacing,
      if_neg Bool.false_ne_true, ih fun u hu => h u (List.mem_cons_of_mem t hu), List.length_cons,
      Nat.add_assoc, Nat.add_comm 1]

theorem valueEnd_plain (hopen : t.kind.isOpener = false) (hclose : t.kind.isCloser = false)
    (hsubstance : isSubstance t = true) {last : Option Token}
    (hgoes : last.isSome = true → endsValue t = false) (passed : Nat) (us : List Token) :
    valueEnd 0 last passed (t :: us) = valueEnd 0 (some t) (passed + 1) us := by
  rw [valueEnd, if_neg, depthAfter_of_plain hopen hclose, hsubstance, if_pos rfl]
  rintro ⟨-, hsome, hends⟩
  rw [hgoes hsome] at hends
  cases hends

theorem depthFrom_flat (h : ∀ t ∈ ts, IsFlat t.kind) (depth : Int) : depthFrom depth ts = depth := by
  induction ts with
  | nil => rfl
  | cons t ts ih =>
    have ht := h t (List.mem_cons_self ..)
    rw [depthFrom_cons, depthAfter_of_plain ht.1 ht.2]
    exact ih fun u hu => h u (List.mem_cons_of_mem t hu)

theorem isFlat_of_isSpacing (h : isSpacing t = true) : IsFlat t.kind := by
  rcases isSpacing_kind h with hkind | hkind <;> rw [hkind] <;> exact ⟨rfl, rfl⟩

theorem kind_of_isSubstance (h : isSubstance t = true) : t.kind ≠ .newline ∧ t.kind ≠ .comment := by
  constructor <;> intro hkind <;> simp [isSubstance, hkind] at h

theorem isSubstance_of_atom (h : AtomToken t v) : isSubstance t = true ∧ t.kind ≠ .operator := by
  cases h with
  | quoted kind => simp [isSubstance, kind]
  | heredoc kind => simp [isSubstance, kind]
  | number kind => simp [isSubstance, kind]
  | yes kind _ => simp [isSubstance, kind]
  | no kind _ => simp [isSubstance, kind]
  | null kind _ => simp [isSubstance, kind]

theorem ne_of_closes {k l : Token.Kind} (h : closes k l = true) :
    k ≠ .comment ∧ l ≠ .comment ∧ l ≠ .operator := by
  unfold closes at h
  split at h
  · decide
  · decide
  · decide
  · cases h

/-- A value with the newlines and comments before it, as the scan of a region cuts it off. -/
structure ValueAt (body : List Token) (last : Token) (rest : List Token) : Prop where
  ends : valueEnd 0 none 0 (body ++ rest) = ⟨some last, body.length, rest⟩
  closed : ∃ others, body = others ++ [last]
  solid : last.kind ≠ .operator

theorem exists_atom {ns : List Token} (ht : AtomToken t v) (hns : Newlines ns)
    (hts : withoutComments ts = ns ++ t :: xs) (hxs : MayEnd xs) :
    ∃ body last rest, ts = body ++ rest ∧ withoutComments body = ns ++ [t] ∧
      withoutComments rest = xs ∧ ValueAt body last rest := by
  obtain ⟨hsubstance, hsolid⟩ := isSubstance_of_atom ht
  obtain ⟨gap, rest, rfl, rfl, rfl⟩ := exists_of_withoutComments hts
  refine ⟨gap ++ [t], t, rest, by simp, ?_, rfl, ?_, ⟨gap, rfl⟩, hsolid⟩
  · rw [withoutComments_append, withoutComments_cons (kind_of_isSubstance hsubstance).2]
    rfl
  · rw [List.append_assoc, valueEnd_spacing (isSpacing_of_withoutComments hns),
      List.singleton_append, valueEnd_plain ht.isFlat.1 ht.isFlat.2 hsubstance (by simp),
      valueEnd_ends (endsValue_of_mayEnd hxs)]
    simp

theorem exists_negative {ns ms : List Token} {n : Number} (ht : t.kind = .operator)
    (hminus : t.text = "-") (hu : u.kind = .number n) (hns : Newlines ns) (hms : Newlines ms)
    (htight : isTight 0 ts = true) (hts : withoutComments ts = ns ++ t :: (ms ++ u :: xs))
    (hxs : MayEnd xs) :
    ∃ body last rest, ts = body ++ rest ∧ withoutComments body = ns ++ t :: (ms ++ [u]) ∧
      withoutComments rest = xs ∧ ValueAt body last rest := by
  obtain ⟨gap, rest, rfl, rfl, hrest⟩ := exists_of_withoutComments hts
  obtain ⟨gap', rest, rfl, rfl, rfl⟩ := exists_of_withoutComments hrest
  have hgap := isSpacing_of_withoutComments hns
  have hgap' := isSpacing_of_withoutComments hms
  have hsubstance : isSubstance t = true := by simp [isSubstance, ht]
  have hsubstance' : isSubstance u = true := by simp [isSubstance, hu]
  obtain rfl : gap' = [] := by
    have hrest := isTight_append htight
    rw [depthFrom_flat fun w hw => isFlat_of_isSpacing (hgap w hw)] at hrest
    exact eq_nil_of_isTight hrest (fun w hw => isSubstance_of_isSpacing (hgap' w hw)) hsubstance'
      (by simp [belong, ht, hminus, hu])
  refine ⟨gap ++ [t, u], u, rest, by simp, ?_, rfl, ?_, ⟨gap ++ [t], by simp⟩, by simp [hu]⟩
  · rw [withoutComments_append, withoutComments_cons (kind_of_isSubstance hsubstance).2,
      withoutComments_cons (kind_of_isSubstance hsubstance').2]
    rfl
  · rw [List.append_assoc, valueEnd_spacing hgap, List.cons_append, List.singleton_append,
      valueEnd_plain (by rw [ht]; rfl) (by rw [ht]; rfl) hsubstance (by simp),
      valueEnd_plain (by rw [hu]; rfl) (by rw [hu]; rfl) hsubstance' (by simp [endsValue, hu]),
      valueEnd_ends (endsValue_of_mayEnd hxs)]
    simp

theorem exists_group {k l : Token.Kind} {ns ws : List Token} (ht : t.kind = k)
    (pair : closes k l = true) (hws : NestedUpTo l ws) (hns : Newlines ns)
    (hts : withoutComments ts = ns ++ t :: (ws ++ xs)) (hxs : MayEnd xs) :
    ∃ body last rest, ts = body ++ rest ∧ withoutComments body = ns ++ t :: ws ∧
      withoutComments rest = xs ∧ ValueAt body last rest := by
  obtain ⟨us, u, rfl, hu, hus⟩ := hws
  obtain ⟨hk, hl, hsolid⟩ := ne_of_closes pair
  rw [List.append_assoc] at hts
  obtain ⟨gap, rest, rfl, rfl, hrest⟩ := exists_of_withoutComments hts
  obtain ⟨inside, rest, rfl, rfl, rfl⟩ := exists_of_withoutComments hrest
  have hinside : Nested (inside.map Token.kind) := nested_of_withoutComments hus rfl
  refine ⟨gap ++ t :: (inside ++ [u]), u, rest, by simp, ?_, rfl, ?_,
    ⟨gap ++ t :: inside, by simp⟩, by rwa [hu]⟩
  · rw [withoutComments_append, withoutComments_cons (by rwa [ht]), withoutComments_append,
      withoutComments_cons (by rwa [hu])]
    rfl
  · rw [List.append_assoc, valueEnd_spacing (isSpacing_of_withoutComments hns), List.cons_append,
      List.append_assoc, List.singleton_append,
      valueEnd_group ht hinside hu pair (endsValue_of_mayEnd hxs)]
    simp

/-- The scan of a region ends a value where the grammar ends it. -/
theorem exists_value {ns vs : List Token} (hv : ValueTokens vs v) (hns : Newlines ns)
    (htight : isTight 0 ts = true) (hts : withoutComments ts = ns ++ (vs ++ xs)) (hxs : MayEnd xs) :
    ∃ body last rest, ts = body ++ rest ∧ withoutComments body = ns ++ vs ∧
      withoutComments rest = xs ∧ ValueAt body last rest := by
  cases hv with
  | atom atom => exact exists_atom atom hns hts hxs
  | negative kind minus blank value =>
    rw [List.cons_append, List.append_assoc] at hts
    exact exists_negative kind minus value hns blank htight hts hxs
  | list kind items => exact exists_group kind rfl items.nested hns hts hxs
  | object kind fields _ => exact exists_group kind rfl fields.nested hns hts hxs

/-! ## Along a region -/

/-- The scan of a region after some tokens of the text: the last of them could not begin anything
that goes on, and comments above the next entry begin before the last newlines and comments among
them. -/
structure Passing (text : String) (before : List Token) (comment : Option Nat)
    (inner after : List Token) : Prop where
  tokens : tokenize text = .ok (before ++ (inner ++ after))
  solid : ∃ old t, before = old ++ [t] ∧ t.kind ≠ .operator
  lead : ∀ place ∈ comment, ∃ old lead, before = old ++ lead ∧ (∀ t ∈ lead, isSpacing t = true) ∧
    (∀ t ∈ old, t.stop ≤ place) ∧ ∀ t ∈ lead ++ inner, place ≤ t.start

namespace Passing

theorem step {comment' : Option Nat} (h : Passing text before comment (t :: inner) after)
    (ht : t.kind ≠ .operator)
    (hlead : ∀ place ∈ comment', ∃ old lead, before ++ [t] = old ++ lead ∧
      (∀ t ∈ lead, isSpacing t = true) ∧ (∀ t ∈ old, t.stop ≤ place) ∧
        ∀ t ∈ lead ++ inner, place ≤ t.start) :
    Passing text (before ++ [t]) comment' inner after where
  tokens := by simpa using h.tokens
  solid := ⟨before, t, rfl, ht⟩
  lead := hlead

theorem spacing_step (h : Passing text before comment (t :: inner) after)
    (ht : isSpacing t = true) : Passing text (before ++ [t]) comment inner after := by
  refine h.step (by rcases isSpacing_kind ht with hk | hk <;> simp [hk]) fun place hplace => ?_
  obtain ⟨old, lead, rfl, hspacing, hold, hstart⟩ := h.lead place hplace
  refine ⟨old, lead ++ [t], by simp, ?_, hold, by simpa using hstart⟩
  intro u hu
  rcases List.mem_append.1 hu with hu | hu
  · exact hspacing u hu
  · obtain rfl := List.mem_singleton.1 hu
    exact ht

/-- Where the line of the next token begins, if the token is first on it, or the token itself
begins, the tokens before it have ended. -/
theorem split (h : Passing text before comment (t :: inner) after) {place : Nat}
    (hplace : place = if firstOnLine text.toList t.start then lineStart text.toList t.start
      else t.start) :
    (∀ u ∈ before, u.stop ≤ place) ∧ ∀ u ∈ t :: inner, place ≤ u.start := by
  have hstanding := standing_of_tokenize h.tokens
  have hle : place ≤ t.start := by
    rw [hplace]
    split_ifs
    · exact lineStart_le _
    · exact Nat.le_refl _
  constructor
  · intro u hu
    rw [hplace]
    split_ifs with hfirst
    · obtain ⟨old, w, rfl, hw⟩ := h.solid
      have htokens : tokenize text = .ok (old ++ w :: t :: (inner ++ after)) := by
        simpa using h.tokens
      rw [lineStart_of_firstOnLine htokens hw hfirst]
      rcases List.mem_append.1 hu with hu | hu
      · have hextent := (standing_of_tokenize htokens).extent w (by simp)
        have := (standing_of_tokenize htokens).le hu (List.mem_cons_self ..)
        omega
      · rw [List.mem_singleton.1 hu]
    · exact hstanding.le hu (by simp)
  · refine List.forall_mem_cons.2 ⟨hle, fun u hu => ?_⟩
    have e : before ++ (t :: inner ++ after) = (before ++ [t]) ++ (inner ++ after) := by simp
    have hextent := hstanding.extent t (by simp)
    have hu' : u ∈ inner ++ after := List.mem_append_left after hu
    have ht' : t ∈ before ++ [t] := by simp
    have := (e ▸ hstanding).le ht' hu'
    omega

theorem comment_step (h : Passing text before comment (t :: inner) after) (ht : t.kind = .comment) :
    Passing text (before ++ [t]) (commentStart text.toList comment t) inner after := by
  have hspacing : isSpacing t = true := by simp [isSpacing, Token.isComment, ht]
  by_cases hbegins : comment.isNone && firstOnLine text.toList t.start
  · rw [commentStart, if_pos hbegins]
    refine h.step (by simp [ht]) fun place hplace => ?_
    cases hplace
    rw [Bool.and_eq_true] at hbegins
    obtain ⟨hbefore, hstart⟩ := h.split (if_pos hbegins.2).symm
    exact ⟨before, [t], rfl, by simpa using hspacing, hbefore, hstart⟩
  · rw [commentStart, if_neg hbegins]
    exact h.spacing_step hspacing

/-- Tokens that may stand between entries: newlines, comments and commas. -/
def IsJunk (t : Token) : Prop :=
  isSpacing t = true ∨ t.kind = .comma

/-- The scan passes tokens between entries. -/
theorem pass {junk : List Token} (h : Passing text before comment (junk ++ inner) after)
    (hjunk : ∀ t ∈ junk, IsJunk t) :
    ∃ comment', Passing text (before ++ junk) comment' inner after ∧
      itemsFrom text.toList comment 0 (junk ++ inner) = itemsFrom text.toList comment' 0 inner := by
  induction junk generalizing before comment with
  | nil => exact ⟨comment, by simpa using h, rfl⟩
  | cons t junk ih =>
    obtain ⟨ht, hrest⟩ := List.forall_mem_cons.1 hjunk
    have hstep : ∃ comment', Passing text (before ++ [t]) comment' (junk ++ inner) after ∧
        itemsFrom text.toList comment 0 (t :: (junk ++ inner)) =
          itemsFrom text.toList comment' 0 (junk ++ inner) := by
      by_cases hcomment : t.kind = .comment
      · exact ⟨_, h.comment_step hcomment, itemsFrom_comment hcomment comment _⟩
      by_cases hcomma : t.kind = .comma
      · refine ⟨none, h.step (by simp [hcomma]) (by simp), itemsFrom_pass ?_ ?_⟩
        · simp [isSubstance, hcomma]
        · simp [beginsEntry, keyOf?, hcomma]
      · have hspacing := ht.resolve_right hcomma
        exact ⟨comment, h.spacing_step hspacing,
          itemsFrom_newline ((isSpacing_kind hspacing).resolve_right hcomment) comment _⟩
    obtain ⟨comment', hpassing, hitems⟩ := hstep
    obtain ⟨comment'', hpassing', hitems'⟩ := ih hpassing hrest
    exact ⟨comment'', by simpa using hpassing', hitems.trans hitems'⟩

/-- An entry begins at the end of a token or after it, with newlines and comments before its key. -/
theorem exists_lead (h : Passing text before comment (t :: inner) after) :
    ∃ old lead, before = old ++ lead ∧ (∀ t ∈ lead, isSpacing t = true) ∧
      (∀ u ∈ old, u.stop ≤ entryStart text.toList comment t) ∧
        ∀ u ∈ lead ++ t :: inner, entryStart text.toList comment t ≤ u.start := by
  cases comment with
  | some place => exact h.lead place rfl
  | none =>
    obtain ⟨hbefore, hstart⟩ := h.split rfl
    exact ⟨before, [], (List.append_nil _).symm, List.forall_mem_nil _, hbefore, hstart⟩

end Passing

/-! ## Entries -/

theorem IsTail.withoutComments {tail : List Token} (h : IsTail tail) :
    withoutComments tail = [] ∨ ∃ t, withoutComments tail = [t] ∧ t.kind = .comma := by
  obtain ⟨commas, comments, rfl, hcommas, hcomments⟩ := h
  have hnone : Document.withoutComments comments = [] := by
    rcases hcomments with rfl | ⟨t, rfl, ht⟩
    · rfl
    · exact List.filter_eq_nil_iff.2 (by simp [Token.isComment, ht])
  rw [withoutComments_append, hnone, List.append_nil]
  rcases hcommas with rfl | ⟨t, rfl, ht⟩
  · exact .inl rfl
  · exact .inr ⟨t, withoutComments_cons (by simp [ht]) [], ht⟩

theorem IsTail.isJunk {tail : List Token} (h : IsTail tail) : ∀ t ∈ tail, Passing.IsJunk t := by
  obtain ⟨commas, comments, rfl, hcommas, hcomments⟩ := h
  refine List.forall_mem_append.2 ⟨?_, ?_⟩
  · rcases hcommas with rfl | ⟨t, rfl, ht⟩
    · exact List.forall_mem_nil _
    · exact List.forall_mem_singleton.2 (.inr ht)
  · rcases hcomments with rfl | ⟨t, rfl, ht⟩
    · exact List.forall_mem_nil _
    · exact List.forall_mem_singleton.2 (.inl (by simp [isSpacing, Token.isComment, ht]))

theorem Passing.IsJunk.isFlat (h : Passing.IsJunk t) : IsFlat t.kind := by
  rcases h with h | h
  · exact isFlat_of_isSpacing h
  · exact isFlat_of_separates (.inl h)

theorem Passing.IsJunk.kind_ne (h : Passing.IsJunk t) : t.kind ≠ .operator := by
  rcases h with h | h
  · rcases isSpacing_kind h with h | h <;> simp [h]
  · simp [h]

theorem onlyMinus_of_isJunk (h : ∀ t ∈ ts, Passing.IsJunk t) : OnlyMinus ts :=
  fun t ht hkind => absurd hkind (h t ht).kind_ne

theorem onlyMinus_of_withoutComments (h : OnlyMinus (withoutComments ts)) : OnlyMinus ts :=
  fun t ht hkind => h t (mem_withoutComments ht (by simp [hkind])) hkind

/-- An entry of the scan is a field that the parser reads. -/
structure Entry.Says (text : String) (e : Entry) (f : String × Value) : Prop where
  key : e.key = f.1
  reads : parseEntry (e.text text) = .ok f

/-- The text from a place before some tokens to the end of the last of them has these tokens, if
none of them could open a heredoc. -/
theorem exists_significantTokens {old mid rest : List Token} {final : Token} {place : Nat}
    (h : tokenize text = .ok (old ++ (mid ++ [final] ++ rest)))
    (hold : ∀ t ∈ old, t.stop ≤ place) (hmid : ∀ t ∈ mid ++ [final], place ≤ t.start)
    (hminus : OnlyMinus (mid ++ [final])) :
    ∃ line, significantTokens (String.ofList (slice text.toList place final.stop)) =
      .ok ((withoutComments (mid ++ [final])).map (Token.back place line)) := by
  have hstanding := (standing_of_tokenize h).sublist (List.sublist_append_right _ _)
  have hfinal := hstanding.extent final (by simp)
  have hstop : ∀ t ∈ mid ++ [final], t.stop ≤ final.stop := by
    intro t ht
    rcases List.mem_append.1 ht with ht | ht
    · have hends := hstanding.sublist (List.sublist_append_left _ _)
      have := hends.le ht (List.mem_singleton_self final)
      omega
    · rw [List.mem_singleton.1 ht]
  have hafter : ∀ t ∈ rest, final.stop ≤ t.start :=
    fun t ht => hstanding.le (List.mem_append_right _ (List.mem_singleton_self final)) ht
  have hle : place ≤ final.stop := by
    have := hmid final (by simp)
    omega
  obtain ⟨line, hline⟩ := tokenize_passage h hle hfinal.2 hold
    (fun t ht => ⟨hmid t ht, hstop t ht⟩) hafter hminus
  refine ⟨line, ?_⟩
  rw [significantTokens, hline, Except.map, filter_uncommented_map (faithful_back place line)]
  rfl

/-- What the scan cuts out for an entry is read back as this entry. -/
theorem Passing.reads {key sign last : Token} {body tail rest : List Token}
    (h : Passing text before comment (key :: sign :: (body ++ (tail ++ rest))) after)
    (hbody : ∃ others, body = others ++ [last]) (htail : IsTail tail)
    (hentry : EntryTokens (key :: sign :: withoutComments body) k v) :
    parseEntry (Entry.text ⟨k, key.line, entryStart text.toList comment key,
      ((last :: tail).getLast (List.cons_ne_nil _ _)).stop⟩ text) = .ok (k, v) := by
  obtain ⟨others, rfl⟩ := hbody
  obtain ⟨old, lead, rfl, hlead, hold, hstart⟩ := h.exists_lead
  let final := (last :: tail).getLast (List.cons_ne_nil _ _)
  let place := entryStart text.toList comment key
  -- The tokens of the entry, and the last of them.
  let mid := lead ++ key :: sign :: (others ++ (last :: tail).dropLast)
  have hmid : mid ++ [final] = lead ++ key :: sign :: (others ++ [last] ++ tail) := by
    have hlast : (last :: tail).dropLast ++ [final] = last :: tail :=
      List.dropLast_append_getLast _
    simp only [mid, List.append_assoc, List.cons_append, hlast, List.nil_append]
  have htokens : tokenize text = .ok (old ++ (mid ++ [final] ++ (rest ++ after))) := by
    rw [hmid]
    simpa using h.tokens
  have hplace : ∀ t ∈ mid ++ [final], place ≤ t.start := by
    intro t ht
    have hsplit : lead ++ key :: sign :: (others ++ [last] ++ (tail ++ rest)) =
        mid ++ [final] ++ rest := by
      rw [hmid]
      simp
    exact hstart t (hsplit ▸ List.mem_append_left rest ht)
  have hkinds : key.kind ≠ .comment ∧ sign.kind ≠ .comment := by
    have huncommented := hentry.uncommented
    constructor <;> intro hkind
    · simpa [Token.isComment, hkind] using huncommented key (by simp)
    · simpa [Token.isComment, hkind] using huncommented sign (by simp)
  have hmiddle : withoutComments (mid ++ [final]) = withoutComments lead ++
      (key :: sign :: withoutComments (others ++ [last]) ++ withoutComments tail) := by
    rw [hmid, withoutComments_append, withoutComments_cons hkinds.1, withoutComments_cons hkinds.2,
      withoutComments_append]
    rfl
  have hminus : OnlyMinus (mid ++ [final]) := by
    refine onlyMinus_of_withoutComments ?_
    rw [hmiddle]
    refine (newlines_withoutComments hlead).onlyMinus.append (hentry.onlyMinus.append ?_)
    exact fun t ht => onlyMinus_of_isJunk htail.isJunk t (List.mem_filter.1 ht).1
  obtain ⟨line, hline⟩ := exists_significantTokens htokens hold hplace hminus
  rw [hmiddle, List.map_append, List.map_append] at hline
  have hback := faithful_back place line
  refine parseEntry_of_tokens hline ((newlines_withoutComments hlead).map hback)
    (hentry.map hback) ?_
  rcases htail.withoutComments with hnil | ⟨c, hc, hkind⟩
  · exact .inl (by rw [hnil]; rfl)
  · exact .inr ⟨c.back place line, by rw [hc]; rfl, hkind⟩

/-- The scan meets the entry of a field, and goes on after it. -/
theorem Passing.entry {key sign : Token} {ns ms vs : List Token}
    (h : Passing text before comment (key :: inner) after) (htight : isTight 0 (key :: inner) = true)
    (hkey : KeyToken key k) (hns : Newlines ns) (hsign : sign.kind = .equals ∨ sign.kind = .colon)
    (hms : Newlines ms) (hvalue : ValueTokens vs v)
    (hinner : withoutComments inner = ns ++ sign :: (ms ++ (vs ++ xs))) (hxs : MayEnd xs) :
    ∃ e passed rest, e.Says text (k, v) ∧ Passing text passed none rest after ∧
      itemsFrom text.toList comment 0 (key :: inner) = .entry e :: itemsFrom text.toList none 0 rest ∧
      isTight 0 rest = true ∧ (withoutComments rest = xs ∨ ∃ c, xs = c :: withoutComments rest) := by
  have hkeyOf := KeyToken.keyOf? hkey
  have hassign : isAssignment sign = true := by
    rcases hsign with hsign | hsign <;> simp [isAssignment, hsign]
  obtain ⟨gap, value, rfl, rfl, hrest⟩ := exists_of_withoutComments hinner
  obtain rfl : gap = [] := by
    refine eq_nil_of_isTight htight
      (fun w hw => isSubstance_of_isSpacing (isSpacing_of_withoutComments hns w hw)) ?_ ?_
    · rcases hsign with hsign | hsign <;> simp [isSubstance, hsign]
    · simp [belong, hkeyOf, hassign]
  rw [List.nil_append] at *
  have hflat : ∀ t ∈ [key, sign], IsFlat t.kind := by
    simpa using ⟨hkey.isFlat, isFlat_of_assigns hsign⟩
  have htight' : isTight 0 value = true := by
    have hsplit : isTight 0 ([key, sign] ++ value) = true := htight
    have hrest := isTight_append hsplit
    rwa [depthFrom_flat hflat] at hrest
  obtain ⟨body, last, rest, rfl, hbody, rfl, hends, hclosed, hsolid⟩ :=
    exists_value hvalue hms htight' hrest hxs
  obtain ⟨tail, rest, rfl, htail, heq⟩ := entryTail_split last rest
  have hentry : EntryTokens (key :: sign :: withoutComments body) k v := by
    rw [hbody]
    exact .mk hkey Newlines.nil hsign hms hvalue
  have hdepth : depthFrom 0 body = 0 := by
    refine (depthFrom_nested (nested_of_withoutComments ?_ rfl) rfl 0).1
    rw [hbody]
    exact nested_append hms.nested hvalue.nested
  have hall : key :: sign :: (body ++ (tail ++ rest)) = (key :: sign :: (body ++ tail)) ++ rest := by
    simp
  refine ⟨_, before ++ key :: sign :: (body ++ tail), rest, ⟨rfl, h.reads hclosed htail hentry⟩, ?_,
    itemsFrom_assigned text.toList comment hkeyOf hassign hends heq, ?_, ?_⟩
  · refine ⟨by simpa using h.tokens, ?_, by simp⟩
    obtain ⟨others, rfl⟩ := hclosed
    refine ⟨before ++ key :: sign :: (others ++ (last :: tail).dropLast),
      (last :: tail).getLast (List.cons_ne_nil _ _), ?_, ?_⟩
    · have hlast := List.dropLast_append_getLast (List.cons_ne_nil last tail)
      simp only [List.append_assoc, List.cons_append, hlast, List.nil_append]
    · rcases List.mem_cons.1 (List.getLast_mem (List.cons_ne_nil last tail)) with hmem | hmem
      · rwa [hmem]
      · exact (htail.isJunk _ hmem).kind_ne
  · rw [hall] at htight
    have hrest := isTight_append htight
    have htail' : depthFrom 0 tail = 0 := depthFrom_flat (fun t ht => (htail.isJunk t ht).isFlat) 0
    rwa [depthFrom_cons, depthFrom_cons, depthAfter_of_plain hkey.isFlat.1 hkey.isFlat.2,
      depthAfter_of_plain (isFlat_of_assigns hsign).1 (isFlat_of_assigns hsign).2, depthFrom_append,
      hdepth, htail'] at hrest
  · rw [withoutComments_append]
    rcases htail.withoutComments with hnil | ⟨c, hc, -⟩
    · exact .inl (by rw [hnil, List.nil_append])
    · exact .inr ⟨c, by rw [hc]; rfl⟩

theorem isJunk_of_withoutComments (h : ∀ t ∈ withoutComments ts, Passing.IsJunk t) :
    ∀ t ∈ ts, Passing.IsJunk t := by
  intro t ht
  by_cases hkind : t.kind = .comment
  · exact .inl (by simp [isSpacing, Token.isComment, hkind])
  · exact h t (mem_withoutComments ht hkind)

theorem isJunk_of_newlines (h : Newlines ts) : ∀ t ∈ ts, Passing.IsJunk t :=
  fun t ht => .inl (by rw [isSpacing, h t ht, Bool.true_or])

/-- The scan passes what stands before a field and meets its entry. -/
theorem Passing.field {junk ws : List Token} (h : Passing text before comment inner after)
    (htight : isTight 0 inner = true) (hjunk : ∀ t ∈ junk, Passing.IsJunk t)
    (hentry : EntryTokens ws k v) (hinner : withoutComments inner = junk ++ (ws ++ xs))
    (hxs : MayEnd xs) :
    ∃ e passed rest, e.Says text (k, v) ∧ Passing text passed none rest after ∧
      itemsFrom text.toList comment 0 inner = .entry e :: itemsFrom text.toList none 0 rest ∧
      isTight 0 rest = true ∧ (withoutComments rest = xs ∨ ∃ c, xs = c :: withoutComments rest) := by
  cases hentry with
  | @mk key sign ns ms vs k v hkey hns hsign hms hvalue =>
    simp only [List.cons_append, List.append_assoc] at hinner
    obtain ⟨gap, rest, rfl, rfl, hrest⟩ := exists_of_withoutComments hinner
    have hgap := isJunk_of_withoutComments hjunk
    obtain ⟨comment', hpassing, hitems⟩ := h.pass hgap
    have htight' := isTight_append htight
    rw [depthFrom_flat fun t ht => (hgap t ht).isFlat] at htight'
    rw [hitems]
    exact hpassing.entry htight' hkey hns hsign hms hvalue hrest hxs

theorem Passing.itemsFrom_junk (h : Passing text before comment inner after)
    (hjunk : ∀ t ∈ inner, Passing.IsJunk t) : itemsFrom text.toList comment 0 inner = [] := by
  rw [← List.append_nil inner] at h ⊢
  obtain ⟨comment', -, hitems⟩ := h.pass hjunk
  rw [hitems]
  rfl

/-- The scan meets the entries of the fields that the grammar sees, in order. -/
theorem entries_of_fields {text : String} {before inner after junk ts : List Token}
    {comment : Option Nat} {close : Token} {fs : Fields}
    (hfields : FieldTokens ts fs) (h : Passing text before comment inner after)
    (htight : isTight 0 inner = true) (hjunk : ∀ t ∈ junk, Passing.IsJunk t)
    (hinner : withoutComments inner ++ [close] = junk ++ ts) :
    ∃ es, itemsFrom text.toList comment 0 inner = es.map .entry ∧
      List.Forall₂ (Entry.Says text) es fs := by
  -- by the derivation of the fields; before each of them stands `junk`, what the last one left
  cases hfields with
  | @close ns t blank kind =>
    rw [← List.append_assoc] at hinner
    have hall : withoutComments inner = junk ++ ns := (List.append_inj' hinner rfl).1
    refine ⟨[], h.itemsFrom_junk (isJunk_of_withoutComments ?_), .nil⟩
    rw [hall]
    exact List.forall_mem_append.2 ⟨hjunk, isJunk_of_newlines blank⟩
  | @last ns ws t k v blank entry kind =>
    rw [← List.append_assoc, ← List.append_assoc] at hinner
    have hall : withoutComments inner = (junk ++ ns) ++ (ws ++ []) := by
      rw [List.append_nil]
      exact (List.append_inj' hinner rfl).1
    obtain ⟨e, passed, rest, hsays, hpassing, hitems, -, hrest⟩ := h.field htight
      (List.forall_mem_append.2 ⟨hjunk, isJunk_of_newlines blank⟩) entry hall (by simp [MayEnd])
    have hempty : withoutComments rest = [] := hrest.resolve_right fun ⟨_, h⟩ => nomatch h
    refine ⟨[e], ?_, .cons hsays .nil⟩
    rw [hitems, hpassing.itemsFrom_junk (isJunk_of_withoutComments (by simp [hempty]))]
    rfl
  | @more ns ws us t k v fs blank entry kind others =>
    obtain ⟨xs, hall, hxs⟩ : ∃ xs, withoutComments inner = (junk ++ ns) ++ (ws ++ xs) ∧
        xs ++ [close] = t :: us := by
      obtain ⟨us', u, hus, -⟩ := others.nested
      have e : junk ++ (ns ++ (ws ++ t :: us)) = (junk ++ ns) ++ (ws ++ t :: us') ++ [u] := by
        simp [hus]
      rw [e] at hinner
      obtain ⟨hall, heq⟩ := List.append_inj' hinner rfl
      exact ⟨t :: us', hall, by rw [heq, hus]; rfl⟩
    have hmayEnd : MayEnd xs := by
      cases xs with
      | nil => simp [MayEnd]
      | cons x xs =>
        intro u hu
        obtain rfl : x = u := by simpa using hu
        rw [(List.cons.inj hxs).1]
        exact kind
    obtain ⟨e, passed, rest, hsays, hpassing, hitems, htight', hrest⟩ := h.field htight
      (List.forall_mem_append.2 ⟨hjunk, isJunk_of_newlines blank⟩) entry hall hmayEnd
    obtain ⟨junk', hjunk', hnext⟩ : ∃ junk' : List Token, (∀ t ∈ junk', Passing.IsJunk t) ∧
        withoutComments rest ++ [close] = junk' ++ us := by
      rcases hrest with rfl | ⟨c, rfl⟩
      · refine ⟨[t], List.forall_mem_singleton.2 ?_, hxs⟩
        rcases kind with kind | kind
        · exact .inr kind
        · exact .inl (by simp [isSpacing, Token.isNewline, kind])
      · exact ⟨[], List.forall_mem_nil _, (List.cons.inj hxs).2⟩
    obtain ⟨es, hes, hall⟩ := entries_of_fields others hpassing htight' hjunk' hnext
    exact ⟨e :: es, by rw [hitems, hes]; rfl, .cons hsays hall⟩
termination_by ts.length
decreasing_by all_goals subst_vars; simp; omega

/-! ## Regions -/

def Region.braced (r : Region) (text : String) : String :=
  String.ofList (slice text.toList (r.openOffset - 1) (r.closeOffset + 1))

/-- The pieces of a region together with its braces. -/
def bracedPieces (inner : List Piece) : List Piece :=
  .token .openBrace '\x7b' [] :: (inner ++ [.token .closeBrace '\x7d' []])

theorem lexed_bracedPieces {front ps back : List Piece} (h : Lexed [] (docPieces front ps back)) :
    Lexed [] (bracedPieces ps) := by
  have hinner : Lexed ('\x7d' :: []) ps := (lexed_inner h).barrier barrier_closeBrace
  have hclose : Lexed [] [.token .closeBrace '\x7d' []] :=
    .single rfl fun line => lexeme_mark rfl line _
  exact .token rfl (fun line => lexeme_mark rfl line _) (Lexed.append hinner hclose)

theorem braced_regionAt {front ps back : List Piece} {text : String}
    (h : charsOf (docPieces front ps back) = text.toList) :
    (regionAt front ps).braced text = String.ofList (charsOf (bracedPieces ps)) := by
  have hopen : (regionAt front ps).openOffset - 1 = (charsOf front).length := by
    simp [regionAt, openChars]
  have hclose : (regionAt front ps).closeOffset + 1 - (charsOf front).length =
      (charsOf (bracedPieces ps)).length := by
    simp [regionAt, openChars, bracedPieces]
    omega
  have hchars : text.toList = charsOf front ++ (charsOf (bracedPieces ps) ++ charsOf back) := by
    rw [← h]
    simp [docPieces, bracedPieces]
  rw [Region.braced, slice, hopen, hclose, hchars, List.drop_left, List.take_left]

/-- A value that begins with a brace is an object. -/
theorem exists_object {opening closing : Token} {ns vs ms : List Token}
    (hopening : opening.kind = .openBrace) (hclosing : closing.kind = .closeBrace)
    (hns : Newlines ns) (hvalue : ValueTokens vs v) (hms : Newlines ms)
    (h : opening :: (xs ++ [closing]) = ns ++ (vs ++ ms)) :
    ∃ d, v = .object d ∧ (d.map Prod.fst).Nodup ∧ FieldTokens (xs ++ [closing]) d := by
  obtain rfl : ns = [] := by
    cases ns with
    | nil => rfl
    | cons n ns =>
      obtain ⟨rfl, -⟩ := List.cons.inj h
      have hnewline := hns opening (List.mem_cons_self ..)
      rw [Token.isNewline_of_kind (by simp [hopening])] at hnewline
      cases hnewline
  obtain rfl : ms = [] := by
    rcases List.eq_nil_or_concat ms with rfl | ⟨ms, m, rfl⟩
    · rfl
    · have e : opening :: xs ++ [closing] = (vs ++ ms) ++ [m] := by simpa using h
      obtain ⟨-, hlast⟩ := List.append_inj' e rfl
      obtain rfl : closing = m := (List.cons.inj hlast).1
      have hnewline := hms closing (by simp)
      rw [Token.isNewline_of_kind (by simp [hclosing])] at hnewline
      cases hnewline
  rw [List.nil_append, List.append_nil] at h
  subst h
  generalize xs ++ [closing] = ws at hvalue
  cases hvalue with
  | atom atom => cases atom <;> simp_all
  | negative kind => simp [hopening] at kind
  | list kind => simp [hopening] at kind
  | @object _ _ fs _ fields distinct => exact ⟨fs, rfl, distinct, fields⟩

/-- A region that is read as a value together with its braces is read as fields. -/
theorem exists_fields {front ps back : List Piece} {closing : Token}
    (hlexed : Lexed [] (docPieces front ps back))
    (hchars : charsOf (docPieces front ps back) = text.toList)
    (hclosing : closing = tokenAfter (openChars front ++ charsOf ps) .closeBrace '\x7d' [])
    (h : parseValue ((regionAt front ps).braced text) = .ok v) :
    ∃ d, v = .object d ∧ (d.map Prod.fst).Nodup ∧
      FieldTokens (withoutComments (tokensAfter (openChars front) ps) ++ [closing]) d := by
  obtain ⟨ns, vs, ms, hts, hns, hvalue, hms⟩ := exists_of_parseValue h
  let opening := tokenAfter (charsOf front) .openBrace '\x7b' []
  let forth := Token.forth (charsOf front).length (lineAfterAll 0 (charsOf front))
  have hforth : Faithful forth := faithful_forth _ _
  -- The tokens of the braced text, counted on from the text before it.
  have htokens : (placed 0 0 (bracedPieces ps)).map forth =
      opening :: (tokensAfter (openChars front) ps ++ [closing]) := by
    have e : (placed 0 0 (bracedPieces ps)).map forth =
        tokensAfter (charsOf front) (bracedPieces ps) := placed_forth _ _ 0 0 _
    rw [e, bracedPieces, tokensAfter_cons, tokensAfter_append, tokensAfter_cons, hclosing]
    rfl
  rw [braced_regionAt hchars, significantTokens, tokenize_charsOf (lexed_bracedPieces hlexed),
    Except.map, Except.ok.injEq] at hts
  have hall := filter_uncommented_map hforth (placed 0 0 (bracedPieces ps))
  have hopening : opening.kind = .openBrace := rfl
  have hclosing' : closing.kind = .closeBrace := by rw [hclosing]; rfl
  have hfilter : withoutComments (opening :: (tokensAfter (openChars front) ps ++ [closing])) =
      opening :: (withoutComments (tokensAfter (openChars front) ps) ++ [closing]) := by
    rw [withoutComments_cons (by simp [hopening]), withoutComments_append,
      withoutComments_cons (by simp [hclosing'])]
    rfl
  rw [htokens, hts, List.map_append, List.map_append, ← withoutComments, hfilter] at hall
  exact exists_object hopening hclosing' (hns.map hforth) (hvalue.map hforth) (hms.map hforth) hall

theorem map_key_of_says {es : List Entry} {d : Fields} (h : List.Forall₂ (Entry.Says text) es d) :
    es.map Entry.key = d.map Prod.fst := by
  induction h with
  | nil => rfl
  | cons he _ ih => rw [List.map_cons, List.map_cons, he.key, ih]

/-- The scan of the map of instances and the reading of its text as a literal agree. Where nothing
stands between a key and its sign or between a minus sign and its number, the keys of the entries
are those of the fields that are read, in order and each once, and what the scan cuts out for an
entry is read as that field. -/
theorem entries_agree {r : Region} (hregion : mapRegion? text = .ok (some r))
    (htokens : tokenize text = .ok ts) (htight : isTight 0 (innerTokens r ts) = true)
    (h : parseValue (r.braced text) = .ok v) :
    ∃ d es, v = .object d ∧ (d.map Prod.fst).Nodup ∧ entries text r = .ok es ∧
      es.map Entry.key = d.map Prod.fst ∧
      List.Forall₂ (fun e f => parseEntry (e.text text) = .ok f) es d := by
  obtain ⟨front, inner, back, hchars, hlexed, rfl, rfl⟩ :=
    exists_map htokens (findMap_of_mapRegion? hregion)
  rw [innerTokens_regionAt] at htight
  obtain ⟨d, rfl, hnodup, hfields⟩ := exists_fields hlexed hchars rfl h
  have hpassing : Passing text (tokensAfter [] front ++ [tokenAfter (charsOf front) .openBrace '\x7b' []])
      none (tokensAfter (openChars front) inner)
      (tokenAfter (openChars front ++ charsOf inner) .closeBrace '\x7d' [] ::
        tokensAfter (openChars front ++ charsOf inner ++ ['\x7d']) back) := by
    refine ⟨?_, ⟨_, _, rfl, by simp [tokenAfter]⟩, by simp⟩
    rw [htokens, tokensAfter_docPieces]
    simp
  obtain ⟨es, hitems, hsays⟩ := entries_of_fields hfields hpassing htight (List.forall_mem_nil _)
    (List.nil_append _).symm
  refine ⟨d, es, rfl, hnodup, ?_, ?_, hsays.imp fun e f he => he.reads⟩
  · have hentry : (es.map Item.entry).filterMap Item.entry? = es := by
      rw [List.filterMap_map]
      exact List.filterMap_some
    rw [entries, items, htokens]
    dsimp only
    rw [innerTokens_regionAt, hitems, Except.map, hentry]
  · exact map_key_of_says hsays

/-- A map with a comment, two entries on one line, a minus sign, a quoted key and a heredoc. -/
def mixedText : String :=
  "instances = \x7b\n  # first\n  a = -1, \"b c\" : <<E\nx,\nE\n\x7d\n"

theorem entries_agree_example :
    mapRegion? mixedText = .ok (some ⟨0, 5, 13, 51⟩) ∧
      (tokenize mixedText).map (fun ts => isTight 0 (innerTokens ⟨0, 5, 13, 51⟩ ts)) = .ok true ∧
      parseValue (Region.braced ⟨0, 5, 13, 51⟩ mixedText) =
        .ok (.object [("a", .number (.int (-1))), ("b c", .text "x,\n")]) ∧
      ∃ es, entries mixedText ⟨0, 5, 13, 51⟩ = .ok es ∧ es.map Entry.key = ["a", "b c"] ∧
        List.Forall₂ (fun e f => parseEntry (e.text mixedText) = .ok f) es
          [("a", .number (.int (-1))), ("b c", .text "x,\n")] := by
  have hregion : mapRegion? mixedText = .ok (some ⟨0, 5, 13, 51⟩) := by decide +kernel
  have htight : (tokenize mixedText).map
      (fun ts => isTight 0 (innerTokens ⟨0, 5, 13, 51⟩ ts)) = .ok true := by decide +kernel
  have hbraced : significantTokens (Region.braced ⟨0, 5, 13, 51⟩ mixedText) =
      .ok [⟨.openBrace, "\x7b", 0, 1, 0⟩, ⟨.newline, "\n", 1, 2, 0⟩, ⟨.newline, "\n", 11, 12, 1⟩,
        ⟨.ident, "a", 14, 15, 2⟩, ⟨.equals, "=", 16, 17, 2⟩, ⟨.operator, "-", 18, 19, 2⟩,
        ⟨.number (.int 1), "1", 19, 20, 2⟩, ⟨.comma, ",", 20, 21, 2⟩,
        ⟨.string "b c" false, "\"b c\"", 22, 27, 2⟩, ⟨.colon, ":", 28, 29, 2⟩,
        ⟨.heredoc "x,\n", "<<E\nx,\nE", 30, 38, 2⟩, ⟨.newline, "\n", 38, 39, 4⟩,
        ⟨.closeBrace, "\x7d", 39, 40, 5⟩] := by
    decide +kernel
  have hvalue : parseValue (Region.braced ⟨0, 5, 13, 51⟩ mixedText) =
      .ok (.object [("a", .number (.int (-1))), ("b c", .text "x,\n")]) := by
    refine parseValue_of_tokens hbraced (.object rfl ?_ (by decide))
    have hblank : Newlines [⟨.newline, "\n", 1, 2, 0⟩, ⟨.newline, "\n", 11, 12, 1⟩] :=
      List.all_eq_true.1 rfl
    have hminus := @ValueTokens.negative ⟨.operator, "-", 18, 19, 2⟩
      ⟨.number (.int 1), "1", 19, 20, 2⟩ [] (.int 1) rfl rfl Newlines.nil rfl
    have hfirst := @EntryTokens.mk ⟨.ident, "a", 14, 15, 2⟩ ⟨.equals, "=", 16, 17, 2⟩ [] [] _ _ _
      (.name rfl) Newlines.nil (.inl rfl) Newlines.nil hminus
    have hheredoc := @ValueTokens.atom ⟨.heredoc "x,\n", "<<E\nx,\nE", 30, 38, 2⟩ _ (.heredoc rfl)
    have hsecond := @EntryTokens.mk ⟨.string "b c" false, "\"b c\"", 22, 27, 2⟩
      ⟨.colon, ":", 28, 29, 2⟩ [] [] _ _ _ (.quoted rfl) Newlines.nil (.inr rfl) Newlines.nil hheredoc
    have hclose := @FieldTokens.close [] ⟨.closeBrace, "\x7d", 39, 40, 5⟩ Newlines.nil rfl
    exact .more hblank hfirst (.inl rfl) (.more Newlines.nil hsecond (.inr rfl) hclose)
  refine ⟨hregion, htight, hvalue, ?_⟩
  cases htokens : tokenize mixedText with
  | error e =>
    rw [htokens] at htight
    cases htight
  | ok ts =>
    rw [htokens] at htight
    obtain ⟨d, es, hd, -, hes, hkeys, hreads⟩ :=
      entries_agree hregion htokens (Except.ok.inj htight) hvalue
    cases hd
    exact ⟨es, hes, hkeys, hreads⟩

end InstanceInventory.Document

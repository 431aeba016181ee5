import InstanceInventory.Proofs.Document.Scan
import InstanceInventory.Proofs.Document.WellMapped

/-! # How deep the scan of a region goes

* `Standing`: tokens stand in a text one after another.
* `Passed`: where the comments above the next entry begin, between the tokens before and ahead.
* `KeyAt`: the token of a region that is the key of an entry.
* `Loose`: a bracket opens at the top of a region and belongs to no entry.
* `Scan.keys`: the key of an entry lies at the top of its region, unless a loose bracket stands
  before it.
* `keys_top_or_loose`: the same for the entries of a document.
-/

namespace InstanceInventory.Document
set_option autoImplicit false
open Literal
variable {cs : List Char} {comment : Option Nat} {ts us before : List Token} {t o : Token}
  {is : List Item} {es met : List Entry} {e : Entry}

/-! ## Depth -/

theorem depthAfter_of_plain {depth : Int} (hopen : t.kind.isOpener = false)
    (hclose : t.kind.isCloser = false) : depthAfter depth t = depth := by
  simp [depthAfter, hopen, hclose]

/-- Brackets that match leave the depth as it was, and nowhere among them is it less. -/
theorem depthFrom_nested {ks : List Token.Kind} (h : Nested ks) (hts : ts.map Token.kind = ks)
    (depth : Int) :
    depthFrom depth ts = depth ∧ ∀ us vs, ts = us ++ vs → depth ≤ depthFrom depth us := by
  induction h generalizing ts depth with
  | nil =>
    rw [List.map_eq_nil_iff.1 hts]
    refine ⟨rfl, fun us vs heq => ?_⟩
    obtain ⟨rfl, -⟩ := List.append_eq_nil_iff.1 heq.symm
    exact Int.le_refl depth
  | plain opener closer _ ih =>
    obtain ⟨t, ts, rfl, rfl, hmap⟩ := List.map_eq_cons_iff.1 hts
    have hafter : depthAfter depth t = depth := depthAfter_of_plain opener closer
    obtain ⟨hall, hpart⟩ := ih hmap depth
    refine ⟨by rw [depthFrom_cons, hafter, hall], fun us vs heq => ?_⟩
    cases us with
    | nil => exact Int.le_refl depth
    | cons u us =>
      rw [List.cons_append, List.cons.injEq] at heq
      obtain ⟨rfl, heq⟩ := heq
      rw [depthFrom_cons, hafter]
      exact hpart us vs heq
  | group pair _ _ ih ih' =>
    obtain ⟨t, zs, rfl, rfl, hmap⟩ := List.map_eq_cons_iff.1 hts
    obtain ⟨xs, zs, rfl, hxs, hmap⟩ := List.map_eq_append_iff.1 hmap
    obtain ⟨u, ys, rfl, rfl, hys⟩ := List.map_eq_cons_iff.1 hmap
    obtain ⟨hopen, hopen', hclose⟩ := isOpener_of_closes pair
    have hin : depthAfter depth t = depth + 1 := by simp [depthAfter, hopen]
    have hout : depthAfter (depth + 1) u = depth := by simp [depthAfter, hopen', hclose]
    obtain ⟨hall, hpart⟩ := ih hxs (depth + 1)
    obtain ⟨hall', hpart'⟩ := ih' hys depth
    refine ⟨by rw [depthFrom_cons, depthFrom_append, depthFrom_cons, hin, hall, hout, hall'],
      fun us vs heq => ?_⟩
    cases us with
    | nil => exact Int.le_refl depth
    | cons w us =>
      rw [List.cons_append, List.cons.injEq] at heq
      obtain ⟨rfl, heq⟩ := heq
      rw [depthFrom_cons, hin]
      rcases List.append_eq_append_iff.1 heq with ⟨ws, rfl, hrest⟩ | ⟨ws, rfl, hrest⟩
      · rw [depthFrom_append, hall]
        cases ws with
        | nil => exact Int.le_of_lt (Int.lt_add_one_iff.2 (Int.le_refl depth))
        | cons w' ws =>
          rw [List.cons_append, List.cons.injEq] at hrest
          obtain ⟨rfl, hrest⟩ := hrest
          rw [depthFrom_cons, hout]
          exact hpart' ws vs hrest
      · have := hpart us ws rfl
        omega

/-! ## Places of tokens -/

/-- A token that begins with a character that is not blank: a bracket that opens, or a name or a
string. -/
def isVisible (t : Token) : Bool :=
  t.kind.isOpener || (keyOf? t).isSome

/-- Tokens stand in a text one after another. -/
structure Standing (cs : List Char) (ts : List Token) : Prop where
  order : ts.Pairwise fun t u => t.stop ≤ u.start
  extent : ∀ t ∈ ts, t.start < t.stop ∧ t.stop ≤ cs.length
  visible : ∀ t ∈ ts, isVisible t = true → ∃ c, cs[t.start]? = some c ∧ Text.isBlank c = false

theorem Standing.sublist (h : Standing cs ts) (hsub : us.Sublist ts) : Standing cs us where
  order := h.order.sublist hsub
  extent t ht := h.extent t (hsub.subset ht)
  visible t ht := h.visible t (hsub.subset ht)

/-- A token stands after those before it. -/
theorem Standing.le (h : Standing cs (ts ++ us)) (ht : t ∈ ts) (ho : o ∈ us) : t.stop ≤ o.start :=
  (List.pairwise_append.1 h.order).2.2 t ht o ho

theorem isBlank_of_isVisible {line n : Nat} {c : Char} {rest : List Char}
    (h : lexeme line c rest = .ok (t.kind, n)) (hvisible : isVisible t = true) :
    Text.isBlank c = false := by
  rw [isVisible, Bool.or_eq_true] at hvisible
  rcases hvisible with hopen | hkey
  · have hmark : ∀ d, punctuation? d = some t.kind → Text.isBlank d = false →
        Text.isBlank c = false := by
      intro d hd hblank
      rwa [(mark_of_lexeme hd h).1]
    generalize t.kind = k at hopen hmark
    cases k with
    | openBrace => exact hmark '\x7b' rfl (by decide)
    | openBracket => exact hmark '[' rfl (by decide)
    | openParen => exact hmark '(' rfl (by decide)
    | _ => cases hopen
  · obtain ⟨name, hkey⟩ := Option.isSome_iff_exists.1 hkey
    exact isBlank_of_keyOf? h hkey

theorem standing_of_tokenize {text : String} (h : tokenize text = .ok ts) :
    Standing text.toList ts := by
  have htiles := tiles_of_tokenize h
  refine ⟨htiles.order, htiles.extent, fun t ht hvisible => ?_⟩
  obtain ⟨c, rest, hdrop, -, hread⟩ := htiles.read t ht
  refine ⟨c, ?_, isBlank_of_isVisible hread hvisible⟩
  rw [← Nat.add_zero t.start, ← List.getElem?_drop, hdrop]
  rfl

/-- A character on the line of a place, before the place. -/
theorem mem_lineBefore {place i : Nat} {c : Char} (hplace : place ≤ cs.length) (hi : i < place)
    (hc : cs[i]? = some c) (hline : lineStart cs place ≤ i) : c ∈ lineBefore cs place := by
  rw [lineStart] at hline
  -- Counted from the place backwards, the character is among those of the line.
  have hlength : ((cs.take place).reverse).length = place := by
    rw [List.length_reverse, List.length_take, Nat.min_eq_left hplace]
  have hindex : place - 1 - i < (lineBefore cs place).length := by omega
  have hmem : (lineBefore cs place)[place - 1 - i] ∈ lineBefore cs place := List.getElem_mem hindex
  have hget : (lineBefore cs place)[place - 1 - i] = c := by
    have hbefore : lineBefore cs place <+: (cs.take place).reverse := List.takeWhile_prefix _
    have hrange : place - 1 - i < ((cs.take place).reverse).length := by omega
    rw [hbefore.getElem hindex, List.getElem_reverse, List.getElem_take]
    have hback : (cs.take place).length - 1 - (place - 1 - i) = i := by
      rw [List.length_take, Nat.min_eq_left hplace]
      omega
    have hget := (List.getElem?_eq_some_iff.1 hc).2
    simpa only [hback] using hget
  rwa [hget] at hmem

/-- What can be seen before a place that is first on its line stands before the line. -/
theorem lt_lineStart {place i : Nat} {c : Char} (hfirst : firstOnLine cs place = true)
    (hplace : place ≤ cs.length) (hi : i < place) (hc : cs[i]? = some c)
    (hblank : Text.isBlank c = false) : i < lineStart cs place := by
  refine Nat.lt_of_not_le fun hle => ?_
  rw [firstOnLine, Text.allBlank, List.all_eq_true] at hfirst
  rw [hfirst c (mem_lineBefore hplace hi hc hle)] at hblank
  cases hblank

theorem lineStart_le (place : Nat) : lineStart cs place ≤ place :=
  Nat.sub_le ..

/-! ## Keys -/

/-- The key of an entry among tokens: the first token from the beginning of the entry on that can be
a key. -/
structure KeyAt (ts : List Token) (e : Entry) (before : List Token) (key : Token) : Prop where
  split : ∃ after, ts = before ++ key :: after
  name : keyOf? key = some e.key
  line : key.line = e.keyLine
  inside : e.start ≤ key.start ∧ key.stop ≤ e.stop
  first : ∀ t ∈ before, (keyOf? t).isSome = true → t.start < e.start

/-- A bracket opens at depth zero among tokens and stands in no entry. -/
def Loose (es : List Entry) (before : List Token) : Prop :=
  ∃ us o vs, before = us ++ o :: vs ∧ o.kind.isOpener = true ∧ depthFrom 0 us = 0 ∧
    ∀ e ∈ es, e.stop ≤ o.start ∨ o.start < e.start

theorem Loose.append (h : Loose es before) (ts : List Token) : Loose es (before ++ ts) := by
  obtain ⟨us, o, vs, rfl, ho⟩ := h
  exact ⟨us, o, vs ++ ts, by simp, ho⟩

theorem Loose.more (h : Loose met before)
    (hlater : ∀ e ∈ es, ∀ t ∈ before, isVisible t = true → t.start < e.start) :
    Loose (met ++ es) before := by
  obtain ⟨us, o, vs, rfl, hopen, hdepth, hmet⟩ := h
  refine ⟨us, o, vs, rfl, hopen, hdepth, List.forall_mem_append.2 ⟨hmet, fun e he => .inr ?_⟩⟩
  exact hlater e he o (by simp) (by rw [isVisible, hopen, Bool.true_or])

/-- What the scan of an entry passes leaves it at depth zero, or at the end. -/
theorem depth_entry {key sign last : Token} {body tail : List Token} {k : String}
    (hkey : keyOf? key = some k) (hsign : isAssignment sign = true) (htail : IsTail tail)
    (hends : EndsAt (depthFrom 0 body) (some last) (tail ++ ts)) :
    ts = [] ∨ depthFrom 0 (key :: sign :: (body ++ tail)) = 0 := by
  have hkey' : depthAfter 0 key = 0 := by
    refine depthAfter_of_plain ?_ ?_ <;>
      cases hk : key.kind <;> simp [keyOf?, hk, Token.Kind.isOpener, Token.Kind.isCloser] at hkey ⊢
  have hsign' : depthAfter 0 sign = 0 := by
    refine depthAfter_of_plain ?_ ?_ <;>
      cases hk : sign.kind <;>
        simp [isAssignment, hk, Token.Kind.isOpener, Token.Kind.isCloser] at hsign ⊢
  have htail' : depthFrom 0 tail = 0 := by
    obtain ⟨commas, comments, rfl, hcommas, hcomments⟩ := htail
    have hone : ∀ us : List Token, ∀ kind : Token.Kind, kind.isOpener = false →
        kind.isCloser = false → (us = [] ∨ ∃ t, us = [t] ∧ t.kind = kind) →
          depthFrom 0 us = 0 := by
      rintro us kind hopen hclose (rfl | ⟨t, rfl, rfl⟩)
      · rfl
      · exact depthAfter_of_plain hopen hclose
    rw [depthFrom_append, hone commas .comma rfl rfl hcommas, hone comments .comment rfl rfl hcomments]
  rcases hends with hnil | ⟨hdepth, -⟩
  · exact .inl (List.append_eq_nil_iff.1 hnil).2
  · refine .inr ?_
    rw [depthFrom_cons, depthFrom_cons, depthFrom_append, hkey', hsign', hdepth, htail']

/-- The scan after some tokens: the comments above the next entry begin after all that can be seen
of these tokens, and before the tokens ahead. -/
structure Passed (cs : List Char) (before : List Token) (comment : Option Nat) (ts : List Token) :
    Prop where
  standing : Standing cs (before ++ ts)
  after : ∀ place ∈ comment, ∀ t ∈ before, isVisible t = true → t.start < place
  ahead : ∀ place ∈ comment, ∀ t ∈ ts, place ≤ t.start

namespace Passed

/-- Past tokens of substance there is no comment above the next entry. -/
theorem pass (h : Passed cs before comment (us ++ ts)) : Passed cs (before ++ us) none ts :=
  ⟨by rw [List.append_assoc]; exact h.standing, by simp, by simp⟩

/-- The scan passes a token that cannot be seen. -/
theorem hidden_step {comment' : Option Nat} (h : Passed cs before comment (t :: ts))
    (ht : isVisible t = false) (hplaces : ∀ place ∈ comment',
      (∀ u ∈ before, isVisible u = true → u.start < place) ∧ ∀ u ∈ ts, place ≤ u.start) :
    Passed cs (before ++ [t]) comment' ts := by
  have e : before ++ [t] ++ ts = before ++ t :: ts := by simp
  refine ⟨by rw [e]; exact h.standing, ?_, fun place hplace => (hplaces place hplace).2⟩
  intro place hplace u hu hvisible
  rcases List.mem_append.1 hu with hu | hu
  · exact (hplaces place hplace).1 u hu hvisible
  · obtain rfl := List.mem_singleton.1 hu
    rw [ht] at hvisible
    cases hvisible

theorem newline_step (h : Passed cs before comment (t :: ts)) (ht : t.kind = .newline) :
    Passed cs (before ++ [t]) comment ts := by
  refine h.hidden_step (by simp [isVisible, keyOf?, ht, Token.Kind.isOpener]) fun place hplace => ?_
  exact ⟨h.after place hplace, fun u hu => h.ahead place hplace u (List.mem_cons_of_mem t hu)⟩

/-- Where the line of a token begins, if the token is first on it, is a place between the tokens. -/
theorem lineStart (h : Passed cs before comment (t :: ts))
    (hfirst : firstOnLine cs t.start = true) :
    (∀ u ∈ before, isVisible u = true → u.start < lineStart cs t.start) ∧
      ∀ u ∈ ts, Document.lineStart cs t.start ≤ u.start := by
  have hextent := h.standing.extent t (by simp)
  constructor
  · intro u hu hvisible
    obtain ⟨c, hc, hblank⟩ := h.standing.visible u (List.mem_append_left _ hu) hvisible
    have hu' := h.standing.extent u (List.mem_append_left _ hu)
    have := h.standing.le hu (List.mem_cons_self ..)
    exact lt_lineStart hfirst (by omega) (by omega) hc hblank
  · intro u hu
    have hle : Document.lineStart cs t.start ≤ t.start := lineStart_le t.start
    have hsplit : before ++ t :: ts = (before ++ [t]) ++ ts := by simp
    have := (hsplit ▸ h.standing).le (t := t) (by simp) hu
    omega

theorem comment_step (h : Passed cs before comment (t :: ts)) (ht : t.kind = .comment) :
    Passed cs (before ++ [t]) (commentStart cs comment t) ts := by
  refine h.hidden_step (by simp [isVisible, keyOf?, ht, Token.Kind.isOpener]) fun place hplace => ?_
  unfold commentStart at hplace
  split at hplace
  · next hfirst =>
    obtain rfl : Document.lineStart cs t.start = place := by simpa using hplace
    rw [Bool.and_eq_true] at hfirst
    exact h.lineStart hfirst.2
  · exact ⟨h.after place hplace,
      fun u hu => h.ahead place hplace u (List.mem_cons_of_mem t hu)⟩

/-- An entry begins after all that can be seen before its key, and takes its key along. -/
theorem entry_bounds {key last : Token} {rest tail : List Token}
    (h : Passed cs before comment (key :: rest)) (hlast : last ∈ rest)
    (htail : ∀ t ∈ tail, t ∈ rest) :
    (∀ t ∈ before, isVisible t = true → t.start < entryStart cs comment key) ∧
      entryStart cs comment key ≤ key.start ∧
        key.stop ≤ ((last :: tail).getLast (List.cons_ne_nil _ _)).stop := by
  have hsplit : before ++ key :: rest = (before ++ [key]) ++ rest := by simp
  have hafter : ∀ t ∈ rest, key.stop ≤ t.stop := by
    intro t ht
    have hle := (hsplit ▸ h.standing).le (t := key) (by simp) ht
    have hextent := h.standing.extent t (by simp [ht])
    omega
  refine ⟨?_, ?_, hafter _ ?_⟩
  · intro t ht hvisible
    unfold entryStart
    split
    · next place => exact h.after place rfl t ht hvisible
    · split
      · next hfirst => exact (h.lineStart hfirst).1 t ht hvisible
      · have hle := h.standing.le ht (List.mem_cons_self ..)
        have hextent := h.standing.extent t (List.mem_append_left _ ht)
        omega
  · unfold entryStart
    split
    · next place => exact h.ahead place rfl key (List.mem_cons_self ..)
    · split
      · exact lineStart_le _
      · exact Nat.le_refl _
  · rcases List.mem_cons.1 (List.getLast_mem (List.cons_ne_nil last tail)) with heq | hmem
    · rw [heq]
      exact hlast
    · exact htail _ hmem

/-- The key of an entry that the scan meets. -/
theorem keyAt {key last : Token} {rest tail : List Token}
    (h : Passed cs before comment (key :: rest)) (hkey : keyOf? key = some e.key)
    (hline : key.line = e.keyLine) (hstart : e.start = entryStart cs comment key)
    (hstop : e.stop = ((last :: tail).getLast (List.cons_ne_nil _ _)).stop) (hlast : last ∈ rest)
    (htail : ∀ t ∈ tail, t ∈ rest) : KeyAt (before ++ key :: rest) e before key := by
  obtain ⟨hbefore, hle, hge⟩ := h.entry_bounds hlast htail
  rw [← hstart] at hbefore hle
  rw [← hstop] at hge
  exact ⟨⟨rest, rfl⟩, hkey, hline, ⟨hle, hge⟩,
    fun t ht hkey => hbefore t ht (by rw [isVisible, hkey, Bool.or_true])⟩

end Passed

/-- The scan after some tokens, with the entries it has met: the entries end before the tokens
ahead, and the scan stands at depth zero unless a bracket is loose. -/
structure Along (cs : List Char) (before : List Token) (met : List Entry) (comment : Option Nat)
    (ts : List Token) : Prop extends Passed cs before comment ts where
  nested : ∀ us vs, before ++ ts = us ++ vs → 0 ≤ depthFrom 0 us
  behind : ∀ e ∈ met, ∀ t ∈ ts, e.stop ≤ t.start
  depth : depthFrom 0 before = 0 ∨ ts = [] ∨ Loose met before

namespace Along

/-- The scan passes a token that is no bracket. -/
theorem plain_step {comment' : Option Nat} (h : Along cs before met comment (t :: ts))
    (hopen : t.kind.isOpener = false) (hclose : t.kind.isCloser = false)
    (hpassed : Passed cs (before ++ [t]) comment' ts) : Along cs (before ++ [t]) met comment' ts := by
  have e : before ++ [t] ++ ts = before ++ t :: ts := by simp
  refine ⟨hpassed, by rw [e]; exact h.nested,
    fun e he u hu => h.behind e he u (List.mem_cons_of_mem t hu), ?_⟩
  rcases h.depth with hdepth | hnil | hloose
  · refine .inl ?_
    rw [depthFrom_append, hdepth, depthFrom_cons, depthAfter_of_plain hopen hclose, depthFrom_nil]
  · cases hnil
  · exact .inr (.inr (hloose.append [t]))

theorem newline_step (h : Along cs before met comment (t :: ts)) (ht : t.kind = .newline) :
    Along cs (before ++ [t]) met comment ts :=
  h.plain_step (by rw [ht]; rfl) (by rw [ht]; rfl) (h.toPassed.newline_step ht)

theorem comment_step (h : Along cs before met comment (t :: ts)) (ht : t.kind = .comment) :
    Along cs (before ++ [t]) met (commentStart cs comment t) ts :=
  h.plain_step (by rw [ht]; rfl) (by rw [ht]; rfl) (h.toPassed.comment_step ht)

theorem pass_step (h : Along cs before met comment (t :: ts)) :
    Along cs (before ++ [t]) met none ts := by
  have hpassed : Passed cs (before ++ [t]) none ts := h.toPassed.pass
  by_cases hopen : t.kind.isOpener = true
  · have e : before ++ [t] ++ ts = before ++ t :: ts := by simp
    refine ⟨hpassed, by rw [e]; exact h.nested,
      fun e he u hu => h.behind e he u (List.mem_cons_of_mem t hu), ?_⟩
    rcases h.depth with hdepth | hnil | hloose
    · exact .inr (.inr ⟨before, t, [], rfl, hopen, hdepth,
        fun e he => .inl (h.behind e he t (List.mem_cons_self ..))⟩)
    · cases hnil
    · exact .inr (.inr (hloose.append [t]))
  · rw [Bool.not_eq_true] at hopen
    by_cases hclose : t.kind.isCloser = true
    · have e : before ++ [t] ++ ts = before ++ t :: ts := by simp
      refine ⟨hpassed, by rw [e]; exact h.nested,
        fun e he u hu => h.behind e he u (List.mem_cons_of_mem t hu), ?_⟩
      rcases h.depth with hdepth | hnil | hloose
      · -- A bracket that closes at depth zero would close nothing.
        have hnonneg := h.nested (before ++ [t]) ts e.symm
        rw [depthFrom_append, hdepth, depthFrom_cons, depthFrom_nil] at hnonneg
        simp [depthAfter, hopen, hclose] at hnonneg
      · cases hnil
      · exact .inr (.inr (hloose.append [t]))
    · exact h.plain_step hopen (by simpa using hclose) hpassed

theorem entry_step {key : Token} {passed : List Token}
    (h : Along cs before met comment (key :: (passed ++ ts)))
    (hdepth : ts = [] ∨ depthFrom 0 (key :: passed) = 0)
    (hstart : ∀ t ∈ before, isVisible t = true → t.start < e.start)
    (hstop : ∀ t ∈ ts, e.stop ≤ t.start) :
    Along cs (before ++ key :: passed) (met ++ [e]) none ts := by
  have hsplit : before ++ key :: passed ++ ts = before ++ key :: (passed ++ ts) := by simp
  have hpassed : Passed cs before comment (key :: passed ++ ts) := h.toPassed
  refine ⟨hpassed.pass, by rw [hsplit]; exact h.nested, List.forall_mem_append.2 ⟨?_, ?_⟩, ?_⟩
  · intro e he t ht
    exact h.behind e he t (by simp [ht])
  · intro e' he' t ht
    obtain rfl := List.mem_singleton.1 he'
    exact hstop t ht
  · rcases h.depth with hzero | hnil | hloose
    · rcases hdepth with hnil | hdepth
      · exact .inr (.inl hnil)
      · refine .inl ?_
        rw [depthFrom_append, hzero, hdepth]
    · cases hnil
    · refine .inr (.inr (Loose.append (hloose.more fun e' he' => ?_) _))
      obtain rfl := List.mem_singleton.1 he'
      exact hstart

end Along

/-- Entries ahead begin after all that can be seen so far, and their keys lie at depth zero unless a
bracket is loose. -/
structure Keyed (before : List Token) (met : List Entry) (ts : List Token) (es : List Entry) :
    Prop where
  later : ∀ e ∈ es, ∀ t ∈ before, isVisible t = true → t.start < e.start
  keys : ∀ e ∈ es, ∃ front key, KeyAt (before ++ ts) e front key ∧
    (depthFrom 0 front = 0 ∨ Loose (met ++ es) front)

theorem Keyed.none : Keyed before met ts [] :=
  ⟨List.forall_mem_nil _, List.forall_mem_nil _⟩

theorem Keyed.step (h : Keyed (before ++ us) met ts es) : Keyed before met (us ++ ts) es := by
  obtain ⟨hlater, hkeys⟩ := h
  rw [List.append_assoc] at hkeys
  exact ⟨fun e he t ht => hlater e he t (List.mem_append_left _ ht), hkeys⟩

/-- An entry that the scan passes is one more of those ahead of it. -/
theorem Keyed.entry {key : Token} {passed : List Token}
    (h : Keyed (before ++ key :: passed) (met ++ [e]) ts es)
    (halong : Along cs before met comment (key :: (passed ++ ts)))
    (hbefore : ∀ t ∈ before, isVisible t = true → t.start < e.start)
    (hkey : KeyAt (before ++ key :: (passed ++ ts)) e before key) :
    Keyed before met (key :: (passed ++ ts)) (e :: es) := by
  obtain ⟨hrest, hkeys⟩ := h
  have hmore : ∀ e' ∈ e :: es, ∀ t ∈ before, isVisible t = true → t.start < e'.start := by
    intro e' he' t ht hvisible
    rcases List.mem_cons.1 he' with rfl | he'
    · exact hbefore t ht hvisible
    · exact hrest e' he' t (List.mem_append_left _ ht) hvisible
  refine ⟨hmore, fun e' he' => ?_⟩
  rcases List.mem_cons.1 he' with rfl | he'
  · refine ⟨before, key, hkey, ?_⟩
    rcases halong.depth with hzero | hnil | hloose
    · exact .inl hzero
    · cases hnil
    · exact .inr (hloose.more hmore)
  · obtain ⟨front, key', hkey', hdepth⟩ := hkeys e' he'
    rw [List.append_assoc] at hkey' hdepth
    exact ⟨front, key', hkey', hdepth⟩

/-- The keys of the entries that the scan meets lie at depth zero, unless a bracket is loose. -/
theorem Scan.keys (h : Scan cs comment ts is) (halong : Along cs before met comment ts) :
    Keyed before met ts (is.filterMap Item.entry?) := by
  induction h generalizing before met with
  | done => exact .none
  | newline kind _ ih => exact (ih (halong.newline_step kind)).step
  | comment kind _ ih => exact (ih (halong.comment_step kind)).step
  | pass _ _ _ ih => exact (ih halong.pass_step).step
  | valueless => exact .none
  | @entry comment k key sign last body tail ts is name assigns substance ends follows _ _ ih =>
    have hlast : last ∈ body := by
      rcases mem_of_lastSubstance substance with hmem | heq
      · exact hmem
      · cases heq
    have e : key :: sign :: (body ++ (tail ++ ts)) = key :: (sign :: (body ++ tail) ++ ts) := by simp
    rw [e] at halong ⊢
    have hlast' : last ∈ sign :: (body ++ tail) ++ ts := by simp [hlast]
    have htail' : ∀ t ∈ tail, t ∈ sign :: (body ++ tail) ++ ts := fun t ht => by simp [ht]
    obtain ⟨hbefore, -, -⟩ := halong.entry_bounds hlast' htail'
    generalize hentry : (⟨k, key.line, entryStart cs comment key,
      ((last :: tail).getLast (List.cons_ne_nil _ _)).stop⟩ : Entry) = entry
    have hlater : ∀ t ∈ ts, entry.stop ≤ t.start := by
      have hsplit : before ++ key :: (sign :: (body ++ tail) ++ ts) =
          (before ++ key :: sign :: (body ++ tail)) ++ ts := by simp
      intro t ht
      rw [← hentry]
      refine (hsplit ▸ halong.standing).le (t := (last :: tail).getLast (List.cons_ne_nil _ _)) ?_ ht
      rcases List.mem_cons.1 (List.getLast_mem (List.cons_ne_nil last tail)) with heq | hmem
      · simp [heq, hlast]
      · simp [hmem]
    have hstep : Along cs (before ++ key :: (sign :: (body ++ tail))) (met ++ [entry]) none ts :=
      halong.entry_step (depth_entry name assigns follows ends) (by rwa [← hentry]) hlater
    rw [List.filterMap_cons_some (b := entry) (by rw [← hentry]; rfl)]
    refine (ih hstep).entry halong (fun t ht hvisible => ?_)
      (halong.keyAt (by rw [name, ← hentry]) (by rw [← hentry]) (by rw [← hentry]) (by rw [← hentry])
        hlast' htail')
    rw [← hentry]
    exact hbefore t ht hvisible

/-- The key of an entry of a region whose brackets match lies at the top of the region, inside no
bracket, unless a bracket that opens at the top before it stands in no entry. -/
theorem keys_top_or_loose {text : String} {r : Region} (htokens : tokenize text = .ok ts)
    (hnested : Nested ((innerTokens r ts).map Token.kind)) :
    ∃ es, entries text r = .ok es ∧ ∀ e ∈ es, ∃ front key, KeyAt (innerTokens r ts) e front key ∧
      (depthFrom 0 front = 0 ∨ Loose es front) := by
  have hstanding := (standing_of_tokenize htokens).sublist
    (List.filter_sublist (p := fun t => r.openOffset ≤ t.start && t.start < r.closeOffset))
  have halong : Along text.toList [] [] none (innerTokens r ts) := by
    refine ⟨⟨hstanding, by simp, by simp⟩, fun us vs heq => ?_, List.forall_mem_nil _, .inl rfl⟩
    exact (depthFrom_nested hnested rfl 0).2 us vs heq
  refine ⟨_, by rw [entries, items, htokens]; rfl, ?_⟩
  exact ((scan_itemsFrom text.toList none (innerTokens r ts)).keys halong).keys

/-- A document with a computed key, whose bracket no entry takes along. -/
def computedKeyText : String :=
  "instances = \x7b\n(k) = \x7b\na = 1\n\x7d\n\x7d\n"

theorem keys_top_or_loose_example :
    mapRegion? computedKeyText = .ok (some ⟨0, 4, 13, 30⟩) ∧
      entries computedKeyText ⟨0, 4, 13, 30⟩ = .ok [⟨"a", 2, 22, 27⟩] ∧
      ∃ ts front key, tokenize computedKeyText = .ok ts ∧
        KeyAt (innerTokens ⟨0, 4, 13, 30⟩ ts) ⟨"a", 2, 22, 27⟩ front key ∧
        (depthFrom 0 front = 0 ∨ Loose [⟨"a", 2, 22, 27⟩] front) := by
  have hentries : entries computedKeyText ⟨0, 4, 13, 30⟩ = .ok [⟨"a", 2, 22, 27⟩] := by
    decide +kernel
  have hkinds : (tokenize computedKeyText).map
      (fun ts => (innerTokens ⟨0, 4, 13, 30⟩ ts).map Token.kind) =
      .ok [.newline, .openParen, .ident, .closeParen, .equals, .openBrace, .newline, .ident, .equals,
        .number (.int 1), .newline, .closeBrace, .newline] := by
    decide +kernel
  refine ⟨by decide +kernel, hentries, ?_⟩
  cases htokens : tokenize computedKeyText with
  | error e =>
    rw [htokens] at hkinds
    cases hkinds
  | ok ts =>
    rw [htokens] at hkinds
    have hkinds : (innerTokens ⟨0, 4, 13, 30⟩ ts).map Token.kind = _ := Except.ok.inj hkinds
    have hnested : Nested ((innerTokens ⟨0, 4, 13, 30⟩ ts).map Token.kind) := by
      rw [hkinds]
      have hkey : Nested (.openParen :: ([.ident] ++ [.closeParen])) :=
        .single rfl (.plain rfl rfl .nil)
      have hvalue : Nested (.openBrace :: ([.newline, .ident, .equals, .number (.int 1), .newline] ++
          [.closeBrace])) :=
        .single rfl (.plain rfl rfl (.plain rfl rfl (.plain rfl rfl (.plain rfl rfl
          (.plain rfl rfl .nil)))))
      exact .plain rfl rfl (hkey.append (.plain rfl rfl (hvalue.append (.plain rfl rfl .nil))))
    obtain ⟨es, hes, hkeys⟩ := keys_top_or_loose htokens hnested
    rw [hentries] at hes
    cases hes
    obtain ⟨front, key, hkey⟩ := hkeys _ (List.mem_singleton_self _)
    exact ⟨ts, front, key, rfl, hkey⟩

end InstanceInventory.Document

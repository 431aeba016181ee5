import InstanceInventory.Proofs.Document.Legible
import InstanceInventory.Proofs.Document.Matching
import InstanceInventory.Proofs.Literal.Ending

/-! # Entries stand apart

* `stop_le_lineStart`: a line that nothing but blanks begins does not begin inside of a token before
  it, unless that token is an operator.
* `Clear`: what the scan has ahead of it, with the lines there, stands past a place.
* `Scan.parted`: the entries that the scan meets lie one after another, each around its key, whether
  brackets match or not.
* `entries_stand_apart`: the same for the map of a document, and the blocks that a splice makes of it.
-/

namespace InstanceInventory.Document
set_option autoImplicit false
open Literal
variable {cs : List Char} {comment : Option Nat} {before ts us toks : List Token} {t u : Token}
  {bound limit place : Nat}

/-! ## Lines between tokens -/

theorem lt_lineStart_of_newline {i : Nat} (hplace : place ≤ cs.length) (hi : i < place)
    (hc : cs[i]? = some '\n') : i < lineStart cs place := by
  refine Nat.lt_of_not_le fun hle => ?_
  have hmem : '\n' ∈ (cs.take place).reverse.takeWhile (· != '\n') :=
    mem_lineBefore hplace hi hc hle
  simpa using List.mem_takeWhile_imp hmem

/-- The characters between two places. -/
theorem exists_between {pre rest : List Char} (hle : pre.length ≤ place)
    (hplace : place ≤ (pre ++ rest).length) :
    ∃ w after, rest = w ++ after ∧ place = (pre ++ w).length := by
  refine ⟨rest.take (place - pre.length), rest.drop (place - pre.length),
    (List.take_append_drop ..).symm, ?_⟩
  rw [List.length_append] at hplace ⊢
  rw [List.length_take_of_le (by omega)]
  omega

theorem exists_newline_at (pre : List Char) {w : List Char} (after : List Char) (hmem : '\n' ∈ w) :
    ∃ i, pre.length ≤ i ∧ i < (pre ++ w).length ∧ (pre ++ (w ++ after))[i]? = some '\n' := by
  obtain ⟨x, y, rfl⟩ := List.append_of_mem hmem
  exact ⟨(pre ++ x).length, by simp, by simp, by simp⟩

/-- A line that nothing but blanks begins does not begin inside of a token before it. -/
theorem stop_le_lineStart (htiles : Tiles cs cs.length toks) (ht : t ∈ toks)
    (hkind : t.kind ≠ .operator) (hle : t.stop ≤ place) (hplace : place ≤ cs.length)
    (hfirst : firstOnLine cs place = true) : t.stop ≤ lineStart cs place := by
  obtain ⟨front, c, ds, rest, rfl, -, hstop, hread⟩ := htiles.exists_chars ht
  have e : front ++ c :: (ds ++ rest) = front ++ c :: ds ++ rest := by simp
  by_cases hnewline : t.kind = .newline
  · rw [hnewline] at hread
    obtain ⟨rfl, hds⟩ := newline_of_lexeme hread
    rw [hstop, List.length_append, List.length_cons, hds] at hle ⊢
    exact lt_lineStart_of_newline hplace hle (by simp)
  · rw [hstop] at hle ⊢
    rw [e] at hplace hfirst ⊢
    obtain ⟨w, after, rfl, rfl⟩ := exists_between hle hplace
    -- The token ends with what is not blank, so that a newline stands after it.
    have hmem : '\n' ∈ w := by
      by_contra hnone
      have hstale : Stale (front ++ c :: ds ++ w) :=
        (stale_append_solid front (solid_of_lexeme hread hnewline hkind)).append hnone
      rw [← List.append_assoc, firstOnLine_append] at hfirst
      rw [Stale, hfirst] at hstale
      cases hstale
    obtain ⟨i, hi, hlt, hc⟩ := exists_newline_at (front ++ c :: ds) after hmem
    exact Nat.le_trans hi (Nat.le_of_lt (lt_lineStart_of_newline hplace hlt hc))

/-- The line of a token does not begin inside of an operator before it on another line. -/
theorem stop_le_lineStart_of_operator (htiles : Tiles cs cs.length toks) (ht : t ∈ toks) (hu : u ∈ toks)
    (hkind : t.kind = .operator) (hle : t.stop ≤ u.start) (hline : u.line ≠ t.line) :
    t.stop ≤ lineStart cs u.start := by
  have hextent := htiles.extent u hu
  have hplace : u.start ≤ cs.length := by omega
  rw [htiles.line t ht, htiles.line u hu] at hline
  obtain ⟨front, c, ds, rest, rfl, hstart, hstop, hread⟩ := htiles.exists_chars ht
  have e : front ++ c :: (ds ++ rest) = front ++ c :: ds ++ rest := by simp
  rw [hkind] at hread
  rw [hstop] at hle ⊢
  rw [e] at hplace hline ⊢
  obtain ⟨w, after, rfl, hw⟩ := exists_between hle hplace
  have hmem : '\n' ∈ w := by
    by_contra hnone
    have hu : (front ++ c :: ds ++ (w ++ after)).take u.start = front ++ (c :: ds ++ w) := by
      rw [hw, ← List.append_assoc, List.take_left, List.append_assoc]
    have ht : (front ++ c :: ds ++ (w ++ after)).take t.start = front := by
      rw [hstart, List.append_assoc, List.take_left]
    have hbetween : '\n' ∉ c :: ds ++ w := by
      rw [List.mem_append, not_or]
      exact ⟨newline_not_mem_of_operator hread, hnone⟩
    rw [hu, ht, List.count_append, List.count_eq_zero_of_not_mem hbetween, Nat.add_zero] at hline
    exact hline rfl
  rw [hw] at hplace ⊢
  obtain ⟨i, hi, hlt, hc⟩ := exists_newline_at (front ++ c :: ds) after hmem
  exact Nat.le_trans hi (Nat.le_of_lt (lt_lineStart_of_newline hplace hlt hc))

/-! ## The scan past a place -/

/-- The scan past a place: the tokens ahead, the lines that they begin and the comments above the next
entry stand past it. -/
structure Clear (cs : List Char) (bound : Nat) (before : List Token) (comment : Option Nat)
    (ts : List Token) : Prop extends Passed cs before comment ts where
  tokens : ∀ t ∈ ts, bound ≤ t.start
  lines : ∀ t ∈ ts, t.kind ≠ .newline → firstOnLine cs t.start = true →
    bound ≤ lineStart cs t.start
  comments : ∀ place ∈ comment, bound ≤ place

namespace Clear

theorem step {comment' : Option Nat} (h : Clear cs bound before comment (t :: ts))
    (hpassed : Passed cs (before ++ [t]) comment' ts) (hcomments : ∀ place ∈ comment', bound ≤ place) :
    Clear cs bound (before ++ [t]) comment' ts :=
  ⟨hpassed, fun u hu => h.tokens u (List.mem_cons_of_mem t hu),
    fun u hu => h.lines u (List.mem_cons_of_mem t hu), hcomments⟩

theorem newline_step (h : Clear cs bound before comment (t :: ts)) (ht : t.kind = .newline) :
    Clear cs bound (before ++ [t]) comment ts :=
  h.step (h.toPassed.newline_step ht) h.comments

theorem comment_step (h : Clear cs bound before comment (t :: ts)) (ht : t.kind = .comment) :
    Clear cs bound (before ++ [t]) (commentStart cs comment t) ts := by
  refine h.step (h.toPassed.comment_step ht) fun place hplace => ?_
  unfold commentStart at hplace
  split at hplace
  · next hbegins =>
    cases hplace
    rw [Bool.and_eq_true] at hbegins
    exact h.lines t (List.mem_cons_self ..) (by rw [ht]; nofun) hbegins.2
  · exact h.comments place hplace

theorem pass_step (h : Clear cs bound before comment (t :: ts)) :
    Clear cs bound (before ++ [t]) none ts := by
  have hpassed : Passed cs (before ++ [t]) none ts := h.toPassed.pass
  exact h.step hpassed (by simp)

theorem le_entryStart (h : Clear cs bound before comment (t :: ts)) (ht : t.kind ≠ .newline) :
    bound ≤ entryStart cs comment t := by
  unfold entryStart
  split
  · next place => exact h.comments place rfl
  · split
    · next hfirst => exact h.lines t (List.mem_cons_self ..) ht hfirst
    · exact h.tokens t (List.mem_cons_self ..)

end Clear

/-- A line that nothing but blanks begins does not begin inside of an entry before it. -/
theorem stop_le_lineStart_of_entry {last : Token} {body tail : List Token}
    (htiles : Tiles cs cs.length toks) (hsub : ∀ t ∈ last :: tail ++ ts, t ∈ toks)
    (hstanding : Standing cs (last :: tail ++ ts))
    (ends : EndsAt (depthFrom 0 body) (some last) (tail ++ ts)) (follows : IsTail tail)
    (whole : tail = [] → ∀ t ∈ ts.head?, t.kind ≠ .comma ∧ (t.kind = .comment → t.line ≠ last.line))
    (hu : u ∈ ts) (hkind : u.kind ≠ .newline) (hfirst : firstOnLine cs u.start = true) :
    ((last :: tail).getLast (List.cons_ne_nil _ _)).stop ≤ lineStart cs u.start := by
  have hplace : u.start ≤ cs.length := by
    have := hstanding.extent u (List.mem_append_right _ hu)
    omega
  have hmem := List.getLast_mem (List.cons_ne_nil last tail)
  by_cases hoperator : ((last :: tail).getLast (List.cons_ne_nil _ _)).kind = .operator
  · -- Neither a comma nor a comment follows the operator, so that the next token ends its line.
    obtain rfl : tail = [] := by
      obtain ⟨commas, comments, rfl, hcommas, hcomments⟩ := follows
      rcases hcomments with rfl | ⟨t, rfl, ht⟩
      · rcases hcommas with rfl | ⟨t, rfl, ht⟩
        · rfl
        · simp [ht] at hoperator
      · simp [ht] at hoperator
    obtain ⟨t, ts, rfl⟩ := List.exists_cons_of_ne_nil (List.ne_nil_of_mem hu)
    obtain ⟨hcomma, hcomment⟩ := whole rfl t rfl
    rw [List.getLast_singleton] at hoperator ⊢
    have hle := hstanding.le (List.mem_singleton_self last) (List.mem_cons_self (a := t) (l := ts))
    have hends : t.kind = .newline ∨ t.kind = .comment := by
      rcases ends with hnil | ⟨-, -, t', us, heq, hends⟩
      · cases hnil
      · cases heq
        unfold endsValue at hends
        split at hends
        · next hk => exact .inl hk
        · next hk => exact absurd hk hcomma
        · next hk => exact .inr hk
        · cases hends
    rcases List.mem_cons.1 hu with rfl | hu
    · exact stop_le_lineStart_of_operator htiles (hsub last (by simp)) (hsub u (by simp)) hoperator
        hle (hcomment (hends.resolve_left hkind))
    · have hsplit : [last] ++ t :: ts = [last, t] ++ ts := rfl
      have hle' := (hsplit ▸ hstanding).le (t := t) (by simp) hu
      have hextent := hstanding.extent t (by simp)
      have hnext : t.stop ≤ lineStart cs u.start := by
        refine stop_le_lineStart htiles (hsub t (by simp)) ?_ hle' hplace hfirst
        rcases hends with hk | hk <;> rw [hk] <;> nofun
      omega
  · exact stop_le_lineStart htiles (hsub _ (List.mem_append_left _ hmem)) hoperator
      (hstanding.le hmem hu) hplace hfirst

/-- The last token of an entry is one of those after its key. -/
theorem getLast_mem_entry {last : Token} {body : List Token} (sign : Token) (tail : List Token)
    (hlast : last ∈ body) :
    (last :: tail).getLast (List.cons_ne_nil _ _) ∈ sign :: (body ++ tail) := by
  rcases List.mem_cons.1 (List.getLast_mem (List.cons_ne_nil last tail)) with heq | hmem
  · rw [heq]
    simp [hlast]
  · simp [hmem]

/-- What the scan has ahead of it after an entry stands past the last token of the entry. -/
theorem Clear.entry_step {key sign last : Token} {body tail : List Token}
    (h : Clear cs bound before comment (key :: sign :: (body ++ (tail ++ ts))))
    (htiles : Tiles cs cs.length toks)
    (hsub : ∀ t ∈ key :: sign :: (body ++ (tail ++ ts)), t ∈ toks) (hlast : last ∈ body)
    (ends : EndsAt (depthFrom 0 body) (some last) (tail ++ ts)) (follows : IsTail tail)
    (whole : tail = [] → ∀ t ∈ ts.head?, t.kind ≠ .comma ∧ (t.kind = .comment → t.line ≠ last.line)) :
    Clear cs ((last :: tail).getLast (List.cons_ne_nil _ _)).stop
      (before ++ key :: sign :: (body ++ tail)) none ts := by
  have hsplit : before ++ key :: sign :: (body ++ (tail ++ ts)) =
      before ++ key :: sign :: (body ++ tail) ++ ts := by simp
  have hpassed : Passed cs before comment (key :: sign :: (body ++ tail) ++ ts) := by
    have e : key :: sign :: (body ++ tail) ++ ts = key :: sign :: (body ++ (tail ++ ts)) := by simp
    rw [e]
    exact h.toPassed
  have hsublist : (last :: tail ++ ts).Sublist (key :: sign :: (body ++ (tail ++ ts))) := by
    have hbody : ([last] ++ (tail ++ ts)).Sublist (body ++ (tail ++ ts)) :=
      (List.singleton_sublist.2 hlast).append_right _
    exact (hbody.cons sign).cons key
  have hstanding : Standing cs (last :: tail ++ ts) :=
    h.standing.sublist (hsublist.trans (List.sublist_append_right ..))
  refine ⟨hpassed.pass, fun u hu => ?_, fun u hu hkind hfirst => ?_, by simp⟩
  · have hmem := List.mem_cons_of_mem key (getLast_mem_entry sign tail hlast)
    exact (hsplit ▸ h.standing).le (List.mem_append_right _ hmem) hu
  · exact stop_le_lineStart_of_entry htiles (fun t ht => hsub t (hsublist.subset ht)) hstanding ends
      follows whole hu hkind hfirst

/-! ## Entries -/

/-- Entries one after another between two places, each around its key. -/
structure Parted (lo hi : Nat) (ts : List Token) (es : List Entry) : Prop where
  within : ∀ e ∈ es, lo ≤ e.start ∧ e.start < e.stop ∧ e.stop ≤ hi
  keyed : ∀ e ∈ es, ∃ front key, KeyAt ts e front key
  order : es.Pairwise fun e f => e.stop ≤ f.start

theorem Parted.none (lo hi : Nat) (ts : List Token) : Parted lo hi ts [] :=
  ⟨List.forall_mem_nil _, List.forall_mem_nil _, .nil⟩

theorem Parted.cons {lo hi : Nat} {e : Entry} {es : List Entry} (h : Parted e.stop hi ts es)
    (hkey : ∃ front key, KeyAt ts e front key) (hlo : lo ≤ e.start) (hlt : e.start < e.stop)
    (hhi : e.stop ≤ hi) : Parted lo hi ts (e :: es) where
  within := by
    refine List.forall_mem_cons.2 ⟨⟨hlo, hlt, hhi⟩, fun f hf => ?_⟩
    have := h.within f hf
    omega
  keyed := List.forall_mem_cons.2 ⟨hkey, h.keyed⟩
  order := List.pairwise_cons.2 ⟨fun f hf => (h.within f hf).1, h.order⟩

/-- The entries that the scan meets lie one after another, past all that it has passed. -/
theorem Scan.parted {is : List Item} (h : Scan cs comment ts is) (htiles : Tiles cs cs.length toks)
    (hsub : ∀ t ∈ ts, t ∈ toks) (hlimit : ∀ t ∈ ts, t.stop ≤ limit)
    (hclear : Clear cs bound before comment ts) :
    Parted bound limit (before ++ ts) (is.filterMap Item.entry?) := by
  have hcons : ∀ (before : List Token) (t : Token) (ts : List Token),
      before ++ [t] ++ ts = before ++ t :: ts := by simp
  induction h generalizing bound before with
  | done => exact .none _ _ _
  | newline kind _ ih =>
    rw [List.forall_mem_cons] at hsub hlimit
    rw [← hcons]
    exact ih hsub.2 hlimit.2 (hclear.newline_step kind)
  | comment kind _ ih =>
    rw [List.forall_mem_cons] at hsub hlimit
    rw [← hcons]
    exact ih hsub.2 hlimit.2 (hclear.comment_step kind)
  | pass _ _ _ ih =>
    rw [List.forall_mem_cons] at hsub hlimit
    rw [← hcons]
    exact ih hsub.2 hlimit.2 hclear.pass_step
  | valueless => exact .none _ _ _
  | @entry comment k key sign last body tail ts is name assigns substance ends follows whole _ ih =>
    have hlast : last ∈ body := by
      rcases mem_of_lastSubstance substance with hmem | heq
      · exact hmem
      · cases heq
    have hsplit : before ++ key :: sign :: (body ++ (tail ++ ts)) =
        before ++ key :: sign :: (body ++ tail) ++ ts := by simp
    have hrest := ih (fun t ht => hsub t (by simp [ht])) (fun t ht => hlimit t (by simp [ht]))
      (hclear.entry_step htiles hsub hlast ends follows whole)
    rw [← hsplit] at hrest
    have hlast' : last ∈ sign :: (body ++ (tail ++ ts)) := by simp [hlast]
    have htail' : ∀ t ∈ tail, t ∈ sign :: (body ++ (tail ++ ts)) := fun t ht => by simp [ht]
    obtain ⟨-, hstart, hstop⟩ := hclear.entry_bounds hlast' htail'
    have hkey := hclear.standing.extent key (by simp)
    refine Parted.cons (e := ⟨k, key.line, entryStart cs comment key, _⟩) hrest
      ⟨before, key, hclear.keyAt name rfl rfl rfl hlast' htail'⟩
      (hclear.le_entryStart (keyOf?_kind name).1) (by dsimp only; omega) (hlimit _ ?_)
    have hsplit' : key :: sign :: (body ++ (tail ++ ts)) = key :: sign :: (body ++ tail) ++ ts := by
      simp
    rw [hsplit']
    exact List.mem_append_left ts (List.mem_cons_of_mem key (getLast_mem_entry sign tail hlast))

/-- The entries of the map of instances lie one after another, each around its key. -/
theorem exists_parted {text : String} {r : Region} (h : mapRegion? text = .ok (some r)) :
    ∃ ts es, tokenize text = .ok ts ∧ entries text r = .ok es ∧
      Parted r.openOffset r.closeOffset (innerTokens r ts) es := by
  obtain ⟨ts, htokens, -⟩ := exists_tokens_of_mapRegion? h
  have hstanding := standing_of_tokenize htokens
  have htiles := tiles_of_tokenize htokens
  obtain ⟨front, inner, back, hchars, hlexed, rfl, rfl⟩ :=
    exists_map htokens (findMap_of_mapRegion? h)
  refine ⟨_, _, htokens, by rw [entries, items, htokens]; rfl, ?_⟩
  have hsub : (innerTokens (regionAt front inner) (tokensAfter [] (docPieces front inner back))).Sublist
      (tokensAfter [] (docPieces front inner back)) := List.filter_sublist
  rw [innerTokens_regionAt] at hsub ⊢
  have hpassed : Passed text.toList [] none (tokensAfter (openChars front) inner) :=
    ⟨hstanding.sublist hsub, by simp, by simp⟩
  suffices hlines : ∀ t ∈ tokensAfter (openChars front) inner, t.kind ≠ .newline →
      firstOnLine text.toList t.start = true →
        (regionAt front inner).openOffset ≤ lineStart text.toList t.start from
    (scan_itemsFrom text.toList none _).parted htiles (fun t ht => hsub.subset ht)
      (fun t ht => (mem_tokensAfter ht).2.2)
      ⟨hpassed, fun t ht => (mem_tokensAfter ht).1, hlines, by simp⟩
  intro t ht _ hfirst
  -- The brace that opens the region stands on the line, unless the line begins after it.
  have hextent := htiles.extent t (hsub.subset ht)
  have hlength : (openChars front).length = (charsOf front).length + 1 := by simp [openChars]
  have hlow := (mem_tokensAfter ht).1
  rw [hlength] at hlow
  rw [regionAt, hlength]
  refine lt_lineStart hfirst (by omega) hlow (c := '\x7b') ?_ (by decide)
  rw [← hchars, charsOf_docPieces, openChars]
  simp

/-! ## Blocks -/

/-- The text between the two places of a span. -/
def spanText (text : String) (span : Nat × Nat) : String :=
  String.ofList (slice text.toList span.1 span.2)

/-- Two spans without a character in common. -/
def Apart (p q : Nat × Nat) : Prop :=
  p.2 ≤ q.1 ∨ q.2 ≤ p.1

theorem Apart.symm {p q : Nat × Nat} (h : Apart p q) : Apart q p :=
  Or.symm h

/-- The block of an entry without the blank lines around it is a span of the entry. -/
theorem exists_span (text : String) (e : Entry) :
    ∃ span : Nat × Nat, stripBlankEdges (e.text text) = spanText text span ∧
      e.start ≤ span.1 ∧ span.1 ≤ span.2 ∧ span.2 ≤ e.start + (e.stop - e.start) := by
  obtain ⟨lead, rest, -, hchars⟩ := stripBlankEdges_infix (e.text text)
  generalize stripBlankEdges (e.text text) = block at hchars ⊢
  rw [Entry.text, String.toList_ofList] at hchars
  have hlength : lead.length + block.toList.length ≤ e.stop - e.start := by
    have hle := List.length_take_le (e.stop - e.start) (text.toList.drop e.start)
    rw [← slice, hchars, List.length_append, List.length_append] at hle
    omega
  refine ⟨(e.start + lead.length, e.start + lead.length + block.toList.length), ?_,
    by dsimp only; omega, by dsimp only; omega, by dsimp only; omega⟩
  have hall : text.toList.drop e.start = lead ++ (block.toList ++
      (rest ++ (text.toList.drop e.start).drop (e.stop - e.start))) := by
    rw [← List.append_assoc block.toList, ← List.append_assoc lead, ← hchars, slice,
      List.take_append_drop]
  rw [spanText, slice, ← List.drop_drop, hall, List.drop_left, Nat.add_sub_cancel_left,
    List.take_left, String.ofList_toList]

/-- The entries of the map of instances lie one after another inside the braces, each around its key,
whether brackets match or not; and no character of the document is in two of the blocks, kept or cut
out, that a splice makes of it. -/
theorem entries_stand_apart {text : String} {r : Region} (h : mapRegion? text = .ok (some r)) :
    ∃ ts es, tokenize text = .ok ts ∧ entries text r = .ok es ∧
      Parted r.openOffset r.closeOffset (innerTokens r ts) es ∧
      ∀ target, ∃ kept cut : List (Nat × Nat),
        splice text target = .ok
          ⟨kept.map (spanText text),
            if cut.isEmpty then none else some (Text.joinLines (cut.map (spanText text)))⟩ ∧
        (∀ span ∈ kept ++ cut, r.openOffset ≤ span.1 ∧ span.2 ≤ r.closeOffset) ∧
        (kept ++ cut).Pairwise Apart := by
  obtain ⟨ts, es, htokens, hentries, hparted⟩ := exists_parted h
  refine ⟨ts, es, htokens, hentries, hparted, fun target => ?_⟩
  have hmap : mapEntries text = .ok es := by
    rw [mapEntries, h]
    exact hentries
  choose span hblock hspan using exists_span text
  have hblocks : ∀ fs : List Entry, fs.map (fun e => stripBlankEdges (e.text text)) =
      (fs.map span).map (spanText text) := by simp [hblock]
  have hperm : ((es.filter fun e => !e.isTarget target).map span ++
      (es.filter (Entry.isTarget target)).map span).Perm (es.map span) := by
    rw [← List.map_append]
    exact (List.perm_append_comm.trans (List.filter_append_perm _ es)).map span
  refine ⟨(es.filter fun e => !e.isTarget target).map span, (es.filter (Entry.isTarget target)).map span,
    ?_, fun p hp => ?_, ?_⟩
  · rw [splice, hmap, Except.map]
    simp only [hblocks, List.isEmpty_map]
  · obtain ⟨e, he, rfl⟩ := List.mem_map.1 (hperm.mem_iff.1 hp)
    have := hparted.within e he
    have := hspan e
    omega
  · refine hperm.symm.pairwise (List.pairwise_map.2 ?_) Apart.symm
    refine hparted.order.imp_of_mem fun {e f} he hf hle => .inl ?_
    have := hparted.within e he
    have := hspan e
    have := hspan f
    omega

/-- A document whose map closes brackets that it never opened and opens some that it never closes. -/
def skewText : String :=
  "instances = \x7b\na = 1 ]\n # b\n b = [ 1\nc = 2 ) # c\n\x7d\n"

theorem entries_stand_apart_example :
    mapRegion? skewText = .ok (some ⟨0, 5, 13, 48⟩) ∧
      entries skewText ⟨0, 5, 13, 48⟩ = .ok [⟨"a", 1, 14, 35⟩, ⟨"c", 4, 36, 43⟩] ∧
      ∃ ts, tokenize skewText = .ok ts ∧
        Parted 13 48 (innerTokens ⟨0, 5, 13, 48⟩ ts) [⟨"a", 1, 14, 35⟩, ⟨"c", 4, 36, 43⟩] := by
  have h : mapRegion? skewText = .ok (some ⟨0, 5, 13, 48⟩) := by decide +kernel
  have hentries : entries skewText ⟨0, 5, 13, 48⟩ =
      .ok [⟨"a", 1, 14, 35⟩, ⟨"c", 4, 36, 43⟩] := by decide +kernel
  obtain ⟨ts, es, htokens, hes, hparted, -⟩ := entries_stand_apart h
  rw [hentries] at hes
  cases hes
  exact ⟨h, hentries, ts, htokens, hparted⟩

end InstanceInventory.Document

import InstanceInventory.Proofs.Document.Relocation
import InstanceInventory.Proofs.Document.WellMapped

/-! # Documents as blocks

* `docPieces`, `regionAt`: a document with a region in braces, and the region.
* `exists_region`, `searchTokens_docPieces`: a region that is found is such a region, and such a
  region is found.
* `Arranges`: the map of instances of a document is a sequence of blocks.
* `Arranges.splice`, `Arranges.keys`: taking such a document apart gives the texts of its blocks.
* `WellMapped.arranges`: the map of a well mapped document is a sequence of blocks.
-/

namespace InstanceInventory.Document
set_option autoImplicit false
open Literal

/-! ## Regions among pieces -/

/-- The pieces of a document with a region in braces. -/
def docPieces (front inner back : List Piece) : List Piece :=
  front ++ .token .openBrace '\x7b' [] :: (inner ++ .token .closeBrace '\x7d' [] :: back)

/-- The characters up to a region, with the brace that opens it. -/
def openChars (front : List Piece) : List Char :=
  charsOf front ++ ['\x7b']

/-- The region in braces of a document. -/
def regionAt (front inner : List Piece) : Region :=
  ⟨lineAfterAll 0 (charsOf front), lineAfterAll 0 (openChars front ++ charsOf inner),
    (openChars front).length, (openChars front ++ charsOf inner).length⟩

theorem stale_openChars (front : List Piece) : Stale (openChars front) :=
  stale_append_solid _ (solid_singleton (by decide))

theorem charsOf_docPieces (front inner back : List Piece) :
    charsOf (docPieces front inner back) =
      openChars front ++ (charsOf inner ++ '\x7d' :: charsOf back) := by
  simp [docPieces, openChars]

theorem lexed_inner {front inner back : List Piece} (h : Lexed [] (docPieces front inner back)) :
    Lexed ('\x7d' :: charsOf back) inner := by
  cases h.right with
  | token _ _ rest => simpa using rest.left

theorem tokensAfter_docPieces (front inner back : List Piece) :
    tokensAfter [] (docPieces front inner back) = tokensAfter [] front ++
      tokenAfter (charsOf front) .openBrace '\x7b' [] ::
        (tokensAfter (openChars front) inner ++
          tokenAfter (openChars front ++ charsOf inner) .closeBrace '\x7d' [] ::
            tokensAfter (openChars front ++ charsOf inner ++ ['\x7d']) back) := by
  rw [docPieces, tokensAfter_append, List.nil_append, tokensAfter_cons, tokensAfter_append,
    tokensAfter_cons]
  rfl

theorem filter_eq_nil_of {p : Token → Bool} {ts : List Token} (h : ∀ t ∈ ts, p t = false) :
    ts.filter p = [] :=
  List.filter_eq_nil_iff.2 fun t ht => by simp [h t ht]

theorem innerTokens_regionAt (front inner back : List Piece) :
    innerTokens (regionAt front inner) (tokensAfter [] (docPieces front inner back)) =
      tokensAfter (openChars front) inner := by
  have hfront : (openChars front).length = (charsOf front).length + 1 := by simp [openChars]
  have hopen : (regionAt front inner).openOffset = (openChars front).length := rfl
  have hclose : (regionAt front inner).closeOffset = (openChars front ++ charsOf inner).length := rfl
  generalize regionAt front inner = r at hopen hclose ⊢
  have hbefore : ∀ t ∈ tokensAfter [] front,
      (r.openOffset ≤ t.start && t.start < r.closeOffset) = false := by
    intro t ht
    have := mem_tokensAfter ht
    rw [List.nil_append] at this
    rw [decide_eq_false (by omega), Bool.false_and]
  have hinside : ∀ t ∈ tokensAfter (openChars front) inner,
      (r.openOffset ≤ t.start && t.start < r.closeOffset) = true := by
    intro t ht
    have := mem_tokensAfter ht
    rw [decide_eq_true (by omega : r.openOffset ≤ _), decide_eq_true (by omega), Bool.true_and]
  have hafter : ∀ t ∈ tokensAfter (openChars front ++ charsOf inner ++ ['\x7d']) back,
      (r.openOffset ≤ t.start && t.start < r.closeOffset) = false := by
    intro t ht
    have := mem_tokensAfter ht
    rw [List.length_append] at this
    rw [decide_eq_false (by omega : ¬ t.start < _), Bool.and_false]
  have hbrace : ¬ r.openOffset ≤ (charsOf front).length := by omega
  rw [innerTokens, tokensAfter_docPieces, List.filter_append, filter_eq_nil_of hbefore,
    List.nil_append, List.filter_cons_of_neg (by simp [tokenAfter, hbrace]),
    List.filter_append, List.filter_eq_self.2 hinside,
    List.filter_cons_of_neg (by simp [tokenAfter, hclose]), filter_eq_nil_of hafter,
    List.append_nil]

/-! ## Finding a region -/

theorem openingBrace?_accepted {accepts : Nat → Bool} {t : Token} (hkind : t.kind = .openBrace)
    (haccepts : accepts t.line = true) (ts : List Token) :
    openingBrace? accepts (t :: ts) = some (t, ts) := by
  simp [openingBrace?, hkind, haccepts]

theorem openingBrace?_passed {accepts : Nat → Bool} {t : Token}
    (h : t.kind = .openBrace → accepts t.line = false) (ts : List Token) :
    openingBrace? accepts (t :: ts) = openingBrace? accepts ts := by
  by_cases hkind : t.kind = .openBrace
  · simp [openingBrace?, hkind, h hkind]
  · simp [openingBrace?]

theorem openingBrace?_append {accepts : Nat → Bool} {ts : List Token}
    (h : ∀ t ∈ ts, t.kind = .openBrace → accepts t.line = false) (us : List Token) :
    openingBrace? accepts (ts ++ us) = openingBrace? accepts us := by
  induction ts with
  | nil => rfl
  | cons t ts ih =>
    rw [List.cons_append, openingBrace?_passed (h t (List.mem_cons_self ..)),
      ih fun u hu => h u (List.mem_cons_of_mem t hu)]

theorem openingBrace?_split {accepts : Nat → Bool} {ts rest : List Token} {t : Token}
    (h : openingBrace? accepts ts = some (t, rest)) :
    t.kind = .openBrace ∧ ∃ us, ts = us ++ t :: rest := by
  induction ts with
  | nil => cases h
  | cons u us ih =>
    by_cases hu : u.kind = .openBrace ∧ accepts u.line = true
    · rw [openingBrace?_accepted hu.1 hu.2] at h
      cases h
      exact ⟨hu.1, [], rfl⟩
    · rw [openingBrace?_passed fun hkind => Bool.eq_false_iff.2 fun haccepts =>
        hu ⟨hkind, haccepts⟩] at h
      obtain ⟨hkind, vs, rfl⟩ := ih h
      exact ⟨hkind, u :: vs, rfl⟩

theorem closingBrace?_split {braces : Nat} {ts : List Token} {t : Token}
    (h : closingBrace? braces ts = some t) :
    t.kind = .closeBrace ∧ ∃ us vs, ts = us ++ t :: vs := by
  induction ts generalizing braces with
  | nil => cases h
  | cons u us ih =>
    rw [closingBrace?.eq_def] at h
    dsimp only at h
    split at h
    · obtain ⟨hkind, vs, ws, rfl⟩ := ih h
      exact ⟨hkind, u :: vs, ws, rfl⟩
    · next hu =>
      cases h
      exact ⟨hu, [], us, rfl⟩
    · obtain ⟨hkind, vs, ws, rfl⟩ := ih h
      exact ⟨hkind, u :: vs, ws, rfl⟩
    · obtain ⟨hkind, vs, ws, rfl⟩ := ih h
      exact ⟨hkind, u :: vs, ws, rfl⟩

/-- A region that is found among the tokens of pieces is a region in braces. -/
theorem exists_region {accepts : Nat → Bool} {ps : List Piece} {r : Region} (hlexed : Lexed [] ps)
    (h : searchTokens accepts (tokensAfter [] ps) = .found r) :
    ∃ front inner back, ps = docPieces front inner back ∧ r = regionAt front inner := by
  rw [searchTokens] at h
  split at h
  · cases h
  · next opening rest hopening =>
    obtain ⟨hopen, us, hsplit⟩ := openingBrace?_split hopening
    split at h
    · cases h
    · next closing hclosing =>
      obtain ⟨hclose, vs, ws, rfl⟩ := closingBrace?_split hclosing
      cases h
      obtain ⟨front, opened, rfl, -, hopened⟩ := exists_split_pieces hsplit
      obtain ⟨gaps, k, c, cs, inside, rfl, -, rfl, htoken, hlexed', hinside⟩ :=
        exists_token hlexed.right hopened
      obtain rfl : k = .openBrace := hopen
      obtain ⟨rfl, rfl⟩ := eq_mark_of_lexed htoken (d := '\x7b') rfl
      obtain ⟨inner, closed, rfl, -, hclosed⟩ := exists_split_pieces hinside
      obtain ⟨gaps', k, c, cs, back, rfl, -, rfl, htoken', -, -⟩ :=
        exists_token hlexed'.right hclosed
      obtain rfl : k = .closeBrace := hclose
      obtain ⟨rfl, rfl⟩ := eq_mark_of_lexed htoken' (d := '\x7d') rfl
      refine ⟨front ++ gaps.map .gap, inner ++ gaps'.map .gap, back, by simp [docPieces], ?_⟩
      simp [regionAt, tokenAfter, openChars, Nat.add_assoc]

/-- A region in braces is found on the first line that is accepted. -/
theorem searchTokens_docPieces {accepts : Nat → Bool} {front inner back : List Piece}
    (hfront : ∀ t ∈ tokensAfter [] front, t.kind = .openBrace → accepts t.line = false)
    (haccepts : accepts (lineAfterAll 0 (charsOf front)) = true)
    (hinner : Nested (kindsOf inner)) :
    searchTokens accepts (tokensAfter [] (docPieces front inner back)) =
      .found (regionAt front inner) := by
  have hclosing : ∀ ts, closingBrace? 0
      (tokenAfter (openChars front ++ charsOf inner) .closeBrace '\x7d' [] :: ts) =
      some (tokenAfter (openChars front ++ charsOf inner) .closeBrace '\x7d' []) := fun _ => rfl
  rw [tokensAfter_docPieces, searchTokens, openingBrace?_append hfront,
    openingBrace?_accepted rfl haccepts]
  dsimp only
  rw [closingBrace?_nested hinner (map_kind_tokensAfter _ _), hclosing]
  simp [tokenAfter, regionAt, openChars]

/-! ## Documents -/

/-- Whether a line of a document is the `start`th or a later one and satisfies a predicate. -/
def lineSatisfies (text : String) (p : String → Bool) (start n : Nat) : Bool :=
  decide (start ≤ n) && ((Text.lines text)[n]?).any p

theorem locate_lines (text : String) (p : String → Bool) (start : Nat) :
    locate (Text.lines text) p start = searchText (lineSatisfies text p start) text := by
  rw [locate, Text.joinLines_lines]
  rfl

/-- A document whose map of instances is a sequence of blocks: its pieces up to the map, the blocks,
and what stands after them in the map and after the map. -/
structure Arranges (text : String) (front : List Piece) (bs : List Block)
    (trail back : List Piece) : Prop where
  written : text = String.ofList (charsOf (docPieces front (regionPieces bs trail) back))
  lexed : Lexed [] (docPieces front (regionPieces bs trail) back)
  found : findMap text = .ok (.found (regionAt front (regionPieces bs trail)))
  arranged : Arranged bs trail

namespace Arranges

variable {text : String} {front trail back : List Piece} {bs : List Block}

theorem chars (h : Arranges text front bs trail back) :
    text.toList = openChars front ++
      (charsOf (regionPieces bs trail) ++ '\x7d' :: charsOf back) := by
  rw [h.written, String.toList_ofList, charsOf_docPieces]

theorem tokenize (h : Arranges text front bs trail back) :
    tokenize text = .ok (tokensAfter [] (docPieces front (regionPieces bs trail) back)) := by
  rw [h.written, tokenize_charsOf h.lexed]
  rfl

/-- The entries of the map are those of the blocks. -/
theorem entries (h : Arranges text front bs trail back) :
    entries text (regionAt front (regionPieces bs trail)) =
      .ok (entriesAfter (openChars front) bs) := by
  have hentry : (entriesAfter (openChars front) bs).filterMap (Item.entry? ∘ Item.entry) =
      entriesAfter (openChars front) bs := List.filterMap_some
  rw [Document.entries, items, h.tokenize]
  dsimp only
  rw [innerTokens_regionAt, itemsFrom_arranged h.arranged h.chars (stale_openChars front),
    Except.map, List.filterMap_map, hentry]

theorem mapRegion? (h : Arranges text front bs trail back) :
    mapRegion? text = .ok (some (regionAt front (regionPieces bs trail))) := by
  rw [Document.mapRegion?, h.found]
  rfl

theorem mapEntries (h : Arranges text front bs trail back) :
    mapEntries text = .ok (entriesAfter (openChars front) bs) := by
  rw [Document.mapEntries, h.mapRegion?]
  exact h.entries

end Arranges

/-- An entry of a document whose part of the text is a block, with no blank lines around it. -/
structure Entry.Shows (text : String) (e : Entry) (b : Block) : Prop where
  key : e.key = b.key
  text : e.text text = b.text
  whole : stripBlankEdges b.text = b.text

theorem entriesAfter_shows {bs : List Block} {trail : List Piece} (h : Arranged bs trail)
    {text : String} {pre after : List Char}
    (htext : text.toList = pre ++ (charsOf (regionPieces bs trail) ++ after)) :
    List.Forall₂ (Entry.Shows text) (entriesAfter pre bs) bs := by
  induction h generalizing pre with
  | nil => exact .nil
  | @cons b bs trail valid ends _ ih =>
    have e : regionPieces (b :: bs) trail = b.pieces ++ regionPieces bs trail := by
      simp [regionPieces]
    rw [e, charsOf_append, List.append_assoc] at htext
    exact .cons ⟨rfl, b.text_entryAfter htext, b.stripBlankEdges_text valid⟩
      (ih (by rw [htext]; simp))

theorem map_key_of_shows {text : String} {es : List Entry} {bs : List Block}
    (h : List.Forall₂ (Entry.Shows text) es bs) : es.map Entry.key = bs.map Block.key := by
  induction h with
  | nil => rfl
  | cons hb _ ih => rw [List.map_cons, List.map_cons, hb.key, ih]

theorem filter_shows {text : String} {es : List Entry} {bs : List Block} (p : String → Bool)
    (h : List.Forall₂ (Entry.Shows text) es bs) :
    List.Forall₂ (Entry.Shows text) (es.filter fun e => p e.key) (bs.filter fun b => p b.key) := by
  induction h with
  | nil => exact .nil
  | @cons e b es bs hb _ ih =>
    cases hp : p b.key
    · simpa [hb.key, hp] using ih
    · simpa [hb.key, hp] using List.Forall₂.cons hb ih

theorem map_text_of_shows {text : String} {es : List Entry} {bs : List Block}
    (h : List.Forall₂ (Entry.Shows text) es bs) :
    es.map (fun e => e.text text) = bs.map Block.text := by
  induction h with
  | nil => rfl
  | cons hb _ ih => rw [List.map_cons, List.map_cons, hb.text, ih]

theorem map_stripBlankEdges_of_shows {text : String} {es : List Entry} {bs : List Block}
    (h : List.Forall₂ (Entry.Shows text) es bs) :
    es.map (fun e => stripBlankEdges (e.text text)) = bs.map Block.text := by
  induction h with
  | nil => rfl
  | cons hb _ ih => rw [List.map_cons, List.map_cons, hb.text, hb.whole, ih]

namespace Arranges

variable {text : String} {front trail back : List Piece} {bs : List Block}

theorem shows (h : Arranges text front bs trail back) :
    List.Forall₂ (Entry.Shows text) (entriesAfter (openChars front) bs) bs :=
  entriesAfter_shows h.arranged h.chars

/-- The keys of the map are those of the blocks. -/
theorem keys (h : Arranges text front bs trail back) : keys text = .ok (bs.map Block.key) := by
  rw [Document.keys, h.mapEntries, Except.map, map_key_of_shows h.shows]

/-- The blocks that stay are those with another key, and the others are cut out. -/
theorem splice (h : Arranges text front bs trail back) (target : Option String) :
    splice text target = .ok
      { remaining := (bs.filter fun b => target != some b.key).map Block.text
        removed := if (bs.filter fun b => target == some b.key).isEmpty then none
          else some (Text.joinLines ((bs.filter fun b => target == some b.key).map Block.text)) } := by
  have hstay := map_stripBlankEdges_of_shows (filter_shows (fun k => !(target == some k)) h.shows)
  have hcut := map_stripBlankEdges_of_shows (filter_shows (fun k => target == some k) h.shows)
  have hsplit : Entry.isTarget target = fun e => target == some e.key := rfl
  rw [Document.splice, h.mapEntries, Except.map, hsplit]
  dsimp only
  rw [hstay, hcut, List.isEmpty_map]
  rfl

end Arranges

theorem findMap_of_mapRegion? {text : String} {r : Region} (h : mapRegion? text = .ok (some r)) :
    findMap text = .ok (.found r) := by
  unfold mapRegion? at h
  cases hfind : findMap text with
  | error e =>
    rw [hfind] at h
    cases h
  | ok search =>
    rw [hfind] at h
    cases search with
    | found r' =>
      cases h
      rfl
    | _ => cases h

/-- The map of instances of a document, once it is found, is a region in braces. -/
theorem exists_map {text : String} {r : Region} {ts : List Token}
    (htokens : tokenize text = .ok ts) (hfound : findMap text = .ok (.found r)) :
    ∃ front inner back, charsOf (docPieces front inner back) = text.toList ∧
      Lexed [] (docPieces front inner back) ∧ ts = tokensAfter [] (docPieces front inner back) ∧
      r = regionAt front inner := by
  obtain ⟨ps, htext, hlexed, rfl⟩ := exists_pieces htokens
  have hsearch : searchTokens (lineSatisfies text opensInstanceMap 0) (tokensAfter [] ps) =
      .found r := by
    rw [findMap, locate_lines, searchText, htokens] at hfound
    exact Except.ok.inj hfound
  obtain ⟨front, inner, back, rfl, rfl⟩ := exists_region hlexed hsearch
  exact ⟨front, inner, back, htext, hlexed, rfl, rfl⟩

/-- The map of instances of a well mapped document is a sequence of blocks. -/
theorem WellMapped.arranges {text : String} {before : List Token} {is : List MapItem}
    (h : WellMapped text before is) :
    ∃ front bs trail back, Arranges text front bs trail back ∧
      bs.map Block.key = is.map MapItem.name ∧
      Covers text.toList before is (entriesAfter (openChars front) bs) := by
  obtain ⟨ts, r, htokens, hfound, hinner⟩ := h.reads
  obtain ⟨front, inner, back, htext, hlexed, rfl, rfl⟩ := exists_map htokens hfound
  have hchars : text.toList = openChars front ++ (charsOf inner ++ '\x7d' :: charsOf back) := by
    rw [← htext, charsOf_docPieces]
  obtain ⟨bs, trail, rfl, harranged, hkeys, hcovers⟩ := exists_arranged hchars
    (stale_openChars front) (lexed_inner hlexed) ((innerTokens_regionAt front inner back).symm.trans hinner)
    h.before h.items h.apart
  exact ⟨front, bs, trail, back, ⟨by rw [htext, String.ofList_toList], hlexed, hfound, harranged⟩,
    hkeys, hcovers⟩

/-! ## Items of blocks -/

theorem isSpacing_of_spacers {ps : List Piece} (h : ∀ p ∈ ps, Spacer p) (pre : List Char) :
    ∀ t ∈ tokensAfter pre ps, isSpacing t = true := by
  induction ps generalizing pre with
  | nil => exact fun _ ht => nomatch ht
  | cons p ps ih =>
    have hrest := ih fun q hq => h q (List.mem_cons_of_mem p hq)
    cases h p (List.mem_cons_self ..) with
    | @gap c blank =>
      have e : Piece.gap c :: ps = [c].map .gap ++ ps := rfl
      rw [e, tokensAfter_append, tokensAfter_gaps, List.nil_append]
      exact hrest _
    | newline =>
      rw [newlinePiece, tokensAfter_cons]
      exact List.forall_mem_cons.2 ⟨rfl, hrest _⟩
    | comment chars =>
      rw [tokensAfter_cons]
      exact List.forall_mem_cons.2 ⟨rfl, hrest _⟩

/-- The tokens of blocks that begin lines are items that are set apart. -/
theorem exists_items {bs : List Block} {trail : List Piece} (h : Arranged bs trail)
    (hlines : ∀ b ∈ bs, .newline ∈ kindsOf b.junk) (pre : List Char) :
    ∃ before is, tokensAfter pre (regionPieces bs trail) = before ++ is.flatMap MapItem.tokens ∧
      (∀ t ∈ before, isSpacing t = true) ∧ (∀ i ∈ is, i.Valid) ∧ (∀ i ∈ is.dropLast, i.Apart) ∧
      is.map MapItem.name = bs.map Block.key ∧ (is ≠ [] → ∃ t ∈ before, t.kind = .newline) := by
  induction h generalizing pre with
  | nil spacers =>
    exact ⟨_, [], (List.append_nil _).symm, isSpacing_of_spacers spacers pre, List.forall_mem_nil _,
      List.forall_mem_nil _, rfl, fun hne => absurd rfl hne⟩
  | @cons b bs trail valid ends _ ih =>
    obtain ⟨after, is, htokens, hafter, his, hapart, hnames, hnewline⟩ :=
      ih (fun c hc => hlines c (List.mem_cons_of_mem b hc)) (pre ++ charsOf b.pieces)
    obtain ⟨sign, opening, closing, inside, commas, hcore, hsign, hopening, hinside, hclosing, -,
      hcommas, -⟩ := valid.core.tokens (pre ++ charsOf (b.junk ++ b.lead))
    have hcommas : ∃ comma : Option Token, commas = comma.toList ∧ ∀ t ∈ comma, t.kind = .comma := by
      rcases hcommas with ⟨rfl, -⟩ | ⟨t, rfl, ht, -⟩
      · exact ⟨none, rfl, fun _ h => absurd h (Option.not_mem_none _)⟩
      · exact ⟨some t, rfl, fun u hu => by cases hu; exact ht⟩
    obtain ⟨comma, rfl, hcomma⟩ := hcommas
    have hpieces : regionPieces (b :: bs) trail =
        (b.junk ++ b.lead) ++ (b.core.pieces ++ (b.tail ++ regionPieces bs trail)) := by
      simp [regionPieces, Block.pieces, Block.kept]
    have hends : pre ++ charsOf (b.junk ++ b.lead) ++ charsOf b.core.pieces ++ charsOf b.tail =
        pre ++ charsOf b.pieces := by
      simp [Block.pieces, Block.kept]
    let tail := tokensAfter (pre ++ charsOf (b.junk ++ b.lead) ++ charsOf b.core.pieces) b.tail
    let i : MapItem := ⟨b.key, tokenAfter (pre ++ charsOf (b.junk ++ b.lead)) b.core.kind b.core.head
      b.core.tail, sign, opening, inside, closing, comma, tail ++ after⟩
    have hspacing : ∀ t ∈ tail ++ after, isSpacing t = true := by
      intro t ht
      rcases List.mem_append.1 ht with ht | ht
      · exact isSpacing_of_spacers valid.tail.spacers _ t ht
      · exact hafter t ht
    have hi : i.Valid := ⟨valid.core.key, hsign, hopening, hinside, hclosing, hcomma, hspacing⟩
    refine ⟨tokensAfter pre (b.junk ++ b.lead), i :: is, ?_,
      isSpacing_of_spacers valid.leads.spacers pre, List.forall_mem_cons.2 ⟨hi, his⟩, ?_, ?_, ?_⟩
    · rw [hpieces, tokensAfter_append pre (b.junk ++ b.lead), tokensAfter_append _ b.core.pieces,
        tokensAfter_append _ b.tail, hends, htokens, hcore]
      simp [MapItem.tokens, i, tail]
    · cases is with
      | nil => exact List.forall_mem_nil _
      | cons j js =>
        obtain ⟨t, ht, hkind⟩ := hnewline (List.cons_ne_nil j js)
        exact List.forall_mem_cons.2 ⟨.inr ⟨t, List.mem_append_right _ ht, hkind⟩, hapart⟩
    · rw [List.map_cons, List.map_cons, hnames]
    · intro _
      have hmem : .newline ∈ (tokensAfter pre (b.junk ++ b.lead)).map Token.kind := by
        rw [map_kind_tokensAfter, kindsOf_append]
        exact List.mem_append_left _ (hlines b (List.mem_cons_self ..))
      exact List.mem_map.1 hmem

/-- A document that is blocks on lines of their own is well mapped. -/
theorem Arranges.wellMapped {text : String} {front trail back : List Piece} {bs : List Block}
    (h : Arranges text front bs trail back) (hlines : ∀ b ∈ bs, .newline ∈ kindsOf b.junk) :
    ∃ before is, WellMapped text before is ∧ is.map MapItem.name = bs.map Block.key := by
  obtain ⟨before, is, htokens, hbefore, his, hapart, hnames, -⟩ :=
    exists_items h.arranged hlines (openChars front)
  exact ⟨before, is, ⟨⟨_, _, h.tokenize, h.found, (innerTokens_regionAt _ _ _).trans htokens⟩,
    hbefore, his, hapart⟩, hnames⟩

end InstanceInventory.Document

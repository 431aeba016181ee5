import InstanceInventory.Proofs.Document.Rendered
import InstanceInventory.Proofs.Document.Scan
import InstanceInventory.Proofs.Literal.Excerpt
import InstanceInventory.Proofs.Literal.Soundness

/-! # The blocks of a document that can be read

* `LeadsTo`: from a place of a text nothing but blank characters stands before a token.
* `Scan.leadsTo`: an entry begins at such a place.
* `exists_parse_block`, `exists_extract`: the block of an entry, or of a key, is read as a record or
  refused with a report.
-/

namespace InstanceInventory.Document
set_option autoImplicit false
open Literal
variable {cs : List Char} {comment : Option Nat} {toks ts : List Token} {t : Token} {place line skip n : Nat}
  {text : String} {e : Entry}

/-! ## Tokens of a text -/

/-- From the place of a token on a text can be split into tokens. -/
theorem exists_tokensFrom_of_mem (h : tokensFrom place line skip cs = .ok ts) (ht : t ∈ ts) :
    ∃ pre after, cs = pre ++ after ∧ t.start = place + pre.length ∧
      ∃ us, tokensFrom t.start t.line 0 after = .ok us := by
  induction cs generalizing place line skip ts with
  | nil =>
    cases skip <;> cases h <;> cases ht
  | cons c cs ih =>
    have hlater : ∀ {line skip ts}, tokensFrom (place + 1) line skip cs = .ok ts → t ∈ ts →
        ∃ pre after, c :: cs = pre ++ after ∧ t.start = place + pre.length ∧
          ∃ us, tokensFrom t.start t.line 0 after = .ok us := by
      intro line skip ts h ht
      obtain ⟨pre, after, rfl, hstart, hus⟩ := ih h ht
      exact ⟨c :: pre, after, rfl, by rw [hstart, List.length_cons]; omega, hus⟩
    cases skip with
    | succ skip =>
      rw [tokensFrom] at h
      exact hlater h ht
    | zero =>
      have hall := h
      rw [tokensFrom] at h
      split at h
      · exact hlater h ht
      · split at h
        · cases h
        · split at h
          · cases h
          · next us hrest =>
            cases h
            rcases List.mem_cons.1 ht with rfl | ht
            · exact ⟨[], c :: cs, rfl, rfl, _, hall⟩
            · exact hlater hrest ht

/-- From a place of a text nothing but blank characters stands before a token. -/
def LeadsTo (cs : List Char) (toks : List Token) (place : Nat) : Prop :=
  ∃ t ∈ toks, ∃ blanks, Text.allBlank blanks = true ∧ cs.drop place = blanks ++ cs.drop t.start

/-- A code point of no character does not stop the reading from such a place. -/
theorem LeadsTo.tokensFrom_ne (h : LeadsTo cs toks place) (htoks : tokensFrom 0 0 0 cs = .ok toks) :
    tokensFrom 0 0 0 (cs.drop place) ≠ .error (.noSuchCharacter n) := by
  obtain ⟨t, ht, blanks, hblank, hdrop⟩ := h
  obtain ⟨pre, after, rfl, hstart, us, hus⟩ := exists_tokensFrom_of_mem htoks ht
  have hafter : (pre ++ after).drop t.start = after := by
    rw [hstart, Nat.zero_add, List.drop_left]
  rw [hdrop, hafter]
  intro herror
  have hlater : tokensFrom t.start t.line 0 after = .error (.noSuchCharacter n) :=
    (tokensFrom_blanks hblank).1 herror
  rw [hus] at hlater
  cases hlater

/-! ## Where entries begin -/

theorem leadsTo_start (ht : t ∈ toks) : LeadsTo cs toks t.start :=
  ⟨t, ht, [], rfl, rfl⟩

theorem leadsTo_lineStart {pre after : List Char} (ht : t ∈ toks) (hcs : cs = pre ++ after)
    (hstart : t.start = pre.length) (hfirst : firstOnLine cs t.start = true) :
    LeadsTo cs toks (lineStart cs t.start) := by
  obtain ⟨above, habove⟩ : ∃ above, above ++ (Text.lastLine pre).reverse = pre := by
    refine ⟨(pre.reverse.dropWhile (· != '\n')).reverse, ?_⟩
    rw [Text.lastLine, ← List.reverse_append, List.takeWhile_append_dropWhile, List.reverse_reverse]
  have hlength : pre.length - (Text.lastLine pre).length = above.length := by
    have := congrArg List.length habove
    rw [List.length_append, List.length_reverse] at this
    omega
  subst hcs
  rw [hstart, firstOnLine_append] at hfirst
  refine ⟨t, ht, (Text.lastLine pre).reverse, ?_, ?_⟩
  · rw [Text.allBlank, List.all_reverse]
    exact hfirst
  · rw [hstart, lineStart_append, hlength, List.drop_left]
    conv => lhs; rw [← habove]
    rw [List.append_assoc, List.drop_left]

/-- An entry begins where nothing but blank characters stands before a token. -/
theorem Scan.leadsTo {is : List Item} (h : Scan cs comment ts is) (hts : ts ⊆ toks)
    (htoks : tokensFrom 0 0 0 cs = .ok toks)
    (hcomment : ∀ place ∈ comment, LeadsTo cs toks place) (he : .entry e ∈ is) :
    LeadsTo cs toks e.start := by
  have hline : ∀ t ∈ toks, firstOnLine cs t.start = true → LeadsTo cs toks (lineStart cs t.start) := by
    intro t ht hfirst
    obtain ⟨pre, after, hcs, hstart, -⟩ := exists_tokensFrom_of_mem htoks ht
    exact leadsTo_lineStart ht hcs (by rw [hstart, Nat.zero_add]) hfirst
  induction h with
  | done => cases he
  | newline kind rest ih =>
    exact ih (List.cons_subset.1 hts).2 hcomment he
  | @comment comment t ts is kind rest ih =>
    obtain ⟨ht, hrest⟩ := List.cons_subset.1 hts
    refine ih hrest ?_ he
    intro place hplace
    unfold commentStart at hplace
    split at hplace
    · next hbegins =>
      rw [Bool.and_eq_true] at hbegins
      cases hplace
      exact hline t ht hbegins.2
    · exact hcomment place hplace
  | pass substance other rest ih =>
    exact ih (List.cons_subset.1 hts).2 (by simp) he
  | valueless name assigns empty => simp at he
  | @entry comment k key sign last body tail ts is name assigns substance ends follows whole rest ih =>
    obtain ⟨hkey, hrest⟩ := List.cons_subset.1 hts
    rcases List.mem_cons.1 he with heq | he
    · cases heq
      cases comment with
      | some place => exact hcomment place rfl
      | none =>
        dsimp only [entryStart]
        split
        · next hfirst => exact hline key hkey hfirst
        · exact leadsTo_start hkey
    · refine ih (fun t ht => hrest ?_) (by simp) he
      simp [ht]

/-! ## Blocks -/

theorem intercalate_append {ls ms : List (List Char)} (h : ms ≠ []) :
    ['\n'].intercalate (ls ++ ms) = Text.closedChars ls ++ ['\n'].intercalate ms := by
  induction ls with
  | nil => rfl
  | cons l ls ih =>
    obtain ⟨x, xs, hxs⟩ := List.exists_cons_of_ne_nil (List.append_ne_nil_of_right_ne_nil ls h)
    rw [List.cons_append, hxs, List.intercalate_cons_cons, ← hxs, ih, Text.closedChars_cons]
    simp

theorem allBlank_closedChars {ls : List (List Char)} (h : ∀ l ∈ ls, Text.allBlank l = true) :
    Text.allBlank (Text.closedChars ls) = true := by
  rw [Text.allBlank, List.all_eq_true]
  intro c hc
  obtain ⟨l, hl, hc⟩ := List.mem_flatMap.1 hc
  rcases List.mem_append.1 hc with hc | hc
  · exact List.all_eq_true.1 (h l hl) c hc
  · rw [List.mem_singleton.1 hc]
    decide

/-- A block without the blank lines around it stands in the block after blank characters. -/
theorem stripBlankEdges_infix (block : String) :
    ∃ before after, Text.allBlank before = true ∧
      block.toList = before ++ ((stripBlankEdges block).toList ++ after) := by
  let ls := Text.lineChars block.toList
  let kept := ((ls.dropWhile Text.allBlank).reverse.dropWhile Text.allBlank).reverse
  let cut := ((ls.dropWhile Text.allBlank).reverse.takeWhile Text.allBlank).reverse
  have hkept : (stripBlankEdges block).toList = ['\n'].intercalate kept := by
    have hjoin : stripBlankEdges block = Text.joinLines (kept.map String.ofList) := rfl
    rw [hjoin, Text.joinLines_ofList, String.toList_ofList]
  have hlines : ls = ls.takeWhile Text.allBlank ++ (kept ++ cut) := by
    have hback : kept ++ cut = ls.dropWhile Text.allBlank := by
      rw [← List.reverse_append, List.takeWhile_append_dropWhile, List.reverse_reverse]
    rw [hback, List.takeWhile_append_dropWhile]
  have hchars : ['\n'].intercalate ls = block.toList := Text.intercalate_lineChars _
  by_cases hempty : kept = []
  · exact ⟨[], block.toList, rfl, by rw [hkept, hempty]; rfl⟩
  · refine ⟨Text.closedChars (ls.takeWhile Text.allBlank), ?_⟩
    have hblank : Text.allBlank (Text.closedChars (ls.takeWhile Text.allBlank)) = true :=
      allBlank_closedChars fun _ => List.mem_takeWhile_imp
    rw [hlines, intercalate_append (List.append_ne_nil_of_left_ne_nil hempty cut)] at hchars
    by_cases hcut : cut = []
    · exact ⟨[], hblank, by rw [← hchars, hkept, hcut, List.append_nil, List.append_nil]⟩
    · have hclosed : Text.closedChars kept = ['\n'].intercalate kept ++ ['\n'] := by
        have h := intercalate_newline hempty []
        rw [List.append_nil] at h
        exact h.symm
      refine ⟨'\n' :: ['\n'].intercalate cut, hblank, ?_⟩
      rw [← hchars, intercalate_append hcut, hclosed, hkept, List.append_assoc]
      rfl

/-- The blocks of a document are made of its characters. -/
theorem subset_of_mem_splice {target : Option String} {v : Splice} (h : splice text target = .ok v)
    {block : String} (hblock : block ∈ v.remaining) : block.toList ⊆ text.toList := by
  rw [splice] at h
  cases hes : mapEntries text with
  | error f =>
    rw [hes] at h
    cases h
  | ok es =>
    rw [hes] at h
    cases h
    obtain ⟨e, -, rfl⟩ := List.mem_map.1 hblock
    obtain ⟨before, after, -, hchars⟩ := stripBlankEdges_infix (e.text text)
    intro c hc
    have hmem : c ∈ (e.text text).toList := by
      rw [hchars]
      exact List.mem_append_right _ (List.mem_append_left _ hc)
    rw [Entry.text, String.toList_ofList] at hmem
    exact List.mem_of_mem_drop (List.mem_of_mem_take hmem)

/-- What has entries can be split into tokens. -/
theorem exists_tokenize_of_entries {es : List Entry} {r : Region} (h : entries text r = .ok es)
    (he : e ∈ es) : ∃ toks, tokenize text = .ok toks := by
  rw [entries, items] at h
  cases htoks : tokenize text with
  | ok toks => exact ⟨toks, rfl⟩
  | error f =>
    rw [htoks] at h
    cases f with
    | malformed e =>
      cases h
      cases he
    | noSuchCharacter n => cases h

/-- The block of an entry of a region is read as a record or refused with a report. -/
theorem exists_parse_entry {es : List Entry} {r : Region} (h : entries text r = .ok es) (he : e ∈ es) :
    ∃ result, Record.parse (stripBlankEdges (e.text text)) = .ok result := by
  obtain ⟨toks, htoks⟩ := exists_tokenize_of_entries h he
  have hitems : ∃ i ∈ itemsFrom text.toList none 0 (innerTokens r toks), i.entry? = some e := by
    rw [entries, items, htoks] at h
    cases h
    simpa using List.mem_filterMap.1 he
  obtain ⟨i, hi, hentry⟩ := hitems
  obtain rfl : i = .entry e := by
    cases i with
    | entry e' =>
      cases hentry
      rfl
    | valueless => cases hentry
  have hinner : innerTokens r toks ⊆ toks := fun _ => List.mem_of_mem_filter
  have hleads : LeadsTo text.toList toks e.start :=
    (scan_itemsFrom text.toList none (innerTokens r toks)).leadsTo hinner htoks (by simp) hi
  -- A code point of no character in the block would stop the reading of the text as well.
  have hblock : ∀ n, tokenize (stripBlankEdges (e.text text)) ≠ .error (.noSuchCharacter n) := by
    intro n herror
    obtain ⟨before, after, hblank, hchars⟩ := stripBlankEdges_infix (e.text text)
    rw [tokenize] at herror
    generalize (stripBlankEdges (e.text text)).toList = stripped at herror hchars
    have hstripped : tokensFrom 0 0 0 (stripped ++ after) = .error (.noSuchCharacter n) :=
      tokensFrom_beginning herror
    have hwhole : tokensFrom 0 0 0 (e.text text).toList = .error (.noSuchCharacter n) := by
      rw [hchars]
      exact (tokensFrom_blanks hblank).2 hstripped
    rw [Entry.text, String.toList_ofList, slice] at hwhole
    have hlong : tokensFrom 0 0 0 ((text.toList.drop e.start).take (e.stop - e.start) ++
        (text.toList.drop e.start).drop (e.stop - e.start)) = .error (.noSuchCharacter n) :=
      tokensFrom_beginning hwhole
    rw [List.take_append_drop] at hlong
    exact hleads.tokensFrom_ne htoks hlong
  unfold Record.parse
  cases hparse : parseEntry (stripBlankEdges (e.text text)) with
  | error f =>
    rcases refuses_of_parseEntry hparse with ⟨e, rfl⟩ | htokens
    · exact ⟨_, rfl⟩
    · cases f with
      | malformed e => exact ⟨_, rfl⟩
      | noSuchCharacter n => exact absurd htokens (hblock n)
  | ok entry =>
    obtain ⟨key, value⟩ := entry
    cases value with
    | object fields =>
      dsimp only
      split <;> exact ⟨_, rfl⟩
    | _ => exact ⟨_, rfl⟩

/-- The block of an entry is read as a record or refused with a report. -/
theorem exists_parse_block {es : List Entry} (h : mapEntries text = .ok es) (he : e ∈ es) :
    ∃ result, Record.parse (stripBlankEdges (e.text text)) = .ok result := by
  rw [mapEntries] at h
  cases hregion : mapRegion? text with
  | error f =>
    rw [hregion] at h
    cases h
  | ok region =>
    rw [hregion] at h
    cases region with
    | none =>
      cases h
      cases he
    | some r => exact exists_parse_entry h he

/-- The block of a key that a document holds once is read as a record or refused with a report. -/
theorem exists_extract {ks : List String} {key : String} (hkeys : keys text = .ok ks)
    (hnodup : ks.Nodup) (hkey : key ∈ ks) :
    ∃ block result, extract text key = .ok (some block) ∧ Record.parse block = .ok result := by
  rw [keys] at hkeys
  cases hes : mapEntries text with
  | error f =>
    rw [hes] at hkeys
    cases hkeys
  | ok es =>
    rw [hes] at hkeys
    cases hkeys
    obtain ⟨e, he, rfl⟩ := List.mem_map.1 hkey
    have honly : es.filter (Entry.isTarget (some e.key)) = [e] := filter_key_eq hnodup he
    obtain ⟨result, hresult⟩ := exists_parse_block hes he
    refine ⟨_, result, ?_, hresult⟩
    rw [extract, splice, hes, Except.map, honly]
    simp [Text.joinLines, Except.map]

end InstanceInventory.Document

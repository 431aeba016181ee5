import InstanceInventory.Document.Verify
import InstanceInventory.Proofs.Document.Arrangement
import InstanceInventory.Proofs.Literal.Excerpt

/-! # Broken documents

* `Broken`: a document that cannot be split into tokens, or whose map of instances is not whole.
* `Broken.requireMap`, `Broken.keys`: such a document is reported once its map is required, and holds
  no keys for who does not ask.
* `Broken.not_blank`: a blank document is not broken, so it may be written without asking.
* `keys_of_flaw?`: a document without a flaw holds exactly the keys that it should, each once.
-/

namespace InstanceInventory.Document
set_option autoImplicit false
open Literal
variable {text : String}

/-- A document that is broken: it cannot be split into tokens, or a line looks like the opening of a
map of instances and there is no such map that is whole. -/
def Broken (text : String) : Prop :=
  (∃ e, tokenize text = .error (.malformed e)) ∨
    mapRegion? text = .ok none ∧ ∃ line ∈ Text.lines text, opensInstanceMap line = true

theorem findMap_of_malformed {e : SyntaxError} (h : tokenize text = .error (.malformed e)) :
    findMap text = .ok (.unreadable e) := by
  rw [findMap, locate_lines, searchText, h]

namespace Broken

theorem mapRegion? (h : Broken text) : mapRegion? text = .ok none := by
  rcases h with ⟨e, he⟩ | ⟨hnone, -⟩
  · rw [Document.mapRegion?, findMap_of_malformed he]
    rfl
  · exact hnone

/-- A broken document holds no keys for who does not require its map. -/
theorem keys (h : Broken text) : keys text = .ok [] := by
  rw [Document.keys, mapEntries, h.mapRegion?]
  rfl

/-- A broken document is found broken once its map is required. -/
theorem requireMap (h : Broken text) : ∃ e, requireMap text = .ok (.error e) := by
  unfold Document.requireMap
  rcases h with ⟨e, he⟩ | ⟨hnone, line, hmem, hopens⟩
  · rw [findMap_of_malformed he]
    exact ⟨_, rfl⟩
  · rw [Document.mapRegion?] at hnone
    cases hfound : findMap text with
    | error f =>
      rw [hfound] at hnone
      cases hnone
    | ok search =>
      rw [hfound] at hnone
      have hregion : search.region? = none := Except.ok.inj hnone
      have hline : ((Text.lines text).findIdx? opensInstanceMap).isSome := by
        rw [List.findIdx?_isSome, List.any_eq_true]
        exact ⟨line, hmem, hopens⟩
      obtain ⟨n, hn⟩ := Option.isSome_iff_exists.1 hline
      cases search with
      | unreadable e => exact ⟨_, rfl⟩
      | found r => cases hregion
      | absent | unclosed =>
        simp only [hn, Search.region?]
        exact ⟨_, rfl⟩

/-! ## Blank documents -/

theorem exists_tokens_of_allBlank {cs : List Char} (h : Text.allBlank cs = true)
    (place line skip : Nat) : ∃ ts, tokensFrom place line skip cs = .ok ts := by
  induction cs generalizing place line skip with
  | nil => cases skip <;> exact ⟨[], rfl⟩
  | cons c cs ih =>
    rw [Text.allBlank, List.all_cons, Bool.and_eq_true] at h
    cases skip with
    | succ skip => exact ih h.2 _ _ skip
    | zero =>
      unfold tokensFrom
      split
      · exact ih h.2 _ _ 0
      · obtain ⟨kind, hlexeme⟩ := lexeme_of_isBlank h.1 line cs
        obtain ⟨ts, hts⟩ := ih h.2 (place + 1) (lineAfter line c) 0
        simp only [hlexeme, hts]
        exact ⟨_, rfl⟩

theorem opensBlockChars_of_allBlank {name cs : List Char} (hname : ∃ c ∈ name, Text.isBlank c = false)
    (h : Text.allBlank cs = true) : opensBlockChars name cs = false := by
  induction cs with
  | nil => rfl
  | cons c cs ih =>
    have hprefix : name.isPrefixOf (c :: cs) = false := by
      rw [Bool.eq_false_iff]
      intro hprefix
      obtain ⟨d, hd, hblank⟩ := hname
      have hmem := (List.isPrefixOf_iff_prefix.1 hprefix).subset hd
      rw [Text.allBlank, List.all_eq_true] at h
      rw [h d hmem] at hblank
      cases hblank
    rw [Text.allBlank, List.all_cons, Bool.and_eq_true] at h
    rw [opensBlockChars, namesBlock, hprefix, ih h.2]
    simp

/-- A document that is blank is not broken. -/
theorem not_blank (h : Broken text) : Text.isBlankText text = false := by
  rw [Bool.eq_false_iff]
  intro hblank
  rcases h with ⟨e, he⟩ | ⟨-, line, hmem, hopens⟩
  · obtain ⟨ts, hts⟩ := exists_tokens_of_allBlank hblank 0 0 0
    rw [tokenize, hts] at he
    cases he
  · have hline : Text.allBlank line.toList = true := by
      obtain ⟨l, hl, rfl⟩ := List.mem_map.1 hmem
      rw [String.toList_ofList]
      exact List.all_eq_true.2 fun c hc =>
        List.all_eq_true.1 hblank c (Text.subset_of_mem_lineChars hl hc)
    rw [opensInstanceMap, opensBlockChars_of_allBlank ⟨'i', by decide, by decide⟩ hline] at hopens
    cases hopens

end Broken

/-! ## Documents without a flaw -/

theorem nodup_of_repeatedKeys {keys : List String} (h : (repeatedKeys keys).isEmpty = true) :
    keys.Nodup := by
  rw [List.nodup_iff_count]
  intro k
  by_contra hcount
  have hmem : k ∈ repeatedKeys keys := by
    rw [repeatedKeys, List.mem_mergeSort, List.mem_eraseDups, List.mem_filter]
    exact ⟨List.count_pos_iff.1 (by omega), decide_eq_true (by omega)⟩
  rw [List.isEmpty_iff.1 h] at hmem
  cases hmem

/-- A document without a flaw holds exactly the keys that it should, each once. -/
theorem keys_of_flaw? {expected : List String} (h : flaw? text expected = .ok none) :
    keys text = .ok expected ∧ expected.Nodup := by
  unfold flaw? at h
  cases hmap : mapRegion? text with
  | error e =>
    rw [hmap] at h
    cases h
  | ok map =>
    rw [hmap] at h
    cases map with
    | none => cases h
    | some map =>
      simp only [bind, Except.bind] at h
      cases hes : entries text map with
      | error e =>
        rw [hes] at h
        cases h
      | ok es =>
        rw [hes] at h
        dsimp only at h
        split at h
        · cases h
        · next hrepeated =>
          split at h
          · cases h
          · next hheld =>
            have hheld : es.map Entry.key = expected := by simpa using hheld
            have hkeys : keys text = .ok (es.map Entry.key) := by
              rw [keys, mapEntries, hmap]
              show (entries text map).map _ = _
              rw [hes]
              rfl
            rw [hheld] at hkeys hrepeated
            exact ⟨hkeys, nodup_of_repeatedKeys (by simpa using hrepeated)⟩

end InstanceInventory.Document

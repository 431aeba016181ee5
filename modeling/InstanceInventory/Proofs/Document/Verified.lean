import InstanceInventory.Proofs.Document.Broken
import InstanceInventory.Proofs.Document.Matching
import InstanceInventory.Proofs.Document.Rendered

/-! # What the check of a document says

* `flaw?_eq`: the flaw of a document with a map of instances, from the entries of the map.
* `OpensBlock`: the line of an entry opens a block in braces that ends within the map.
* `flaw?_render_eq`: the flaw of a document that is rendered from records.
* `check_sound_and_exact`: the check accepts nothing but documents of blocks with distinct keys, and
  of what is rendered from records it accepts what it should.
-/

namespace InstanceInventory.Document
set_option autoImplicit false
open Literal
variable {text : String} {ts : List Token} {map r : Region} {es : List Entry} {e : Entry}
  {held expected : List String}

/-! ## Flaws -/

theorem repeatedKeys_isEmpty_iff : (repeatedKeys held).isEmpty = true ↔ held.Nodup :=
  ⟨nodup_of_repeatedKeys, fun h => by rw [repeatedKeys_eq_nil h]; rfl⟩

/-- The flaw of a document with a map of instances: keys that are repeated, else other keys than
there should be, else an entry that is no block. -/
theorem flaw?_eq (hmap : mapRegion? text = .ok (some map)) (hentries : entries text map = .ok es) :
    flaw? text expected =
      if (es.map Entry.key).Nodup then
        if es.map Entry.key = expected then
          (unbalanced? text map es).map (Option.map fun e => .unbalancedRecord e.key)
        else .ok (some (.otherKeys (es.map Entry.key) expected))
      else .ok (some (.repeatedKeys (repeatedKeys (es.map Entry.key)))) := by
  rw [flaw?, hmap]
  simp only [bind, Except.bind, hentries]
  by_cases hnodup : (es.map Entry.key).Nodup
  · rw [repeatedKeys_isEmpty_iff.2 hnodup, if_pos hnodup]
    by_cases hkeys : es.map Entry.key = expected
    · cases unbalanced? text map es <;> simp [hkeys, pure, Except.pure, Except.map]
    · simp [hkeys, pure, Except.pure]
  · have hrepeated : (repeatedKeys (es.map Entry.key)).isEmpty = false :=
      Bool.eq_false_iff.2 fun h => hnodup (repeatedKeys_isEmpty_iff.1 h)
    rw [hrepeated, if_neg hnodup]
    rfl

/-- A document without a flaw has a map of instances whose entries are found. -/
theorem exists_entries_of_flaw? (h : flaw? text expected = .ok none) :
    ∃ map es, mapRegion? text = .ok (some map) ∧ entries text map = .ok es := by
  unfold flaw? at h
  cases hmap : mapRegion? text with
  | error f =>
    rw [hmap] at h
    cases h
  | ok found =>
    rw [hmap] at h
    cases found with
    | none => cases h
    | some map =>
      cases hentries : entries text map with
      | error f =>
        simp only [bind, Except.bind, hentries] at h
        cases h
      | ok es => exact ⟨map, es, rfl, hentries⟩

/-! ## Blocks of entries -/

/-- The line of an entry opens a block in braces that ends on a line of the map or before it. -/
def OpensBlock (text : String) (ts : List Token) (map : Region) (e : Entry) : Prop :=
  ∃ before o inside c rest, ts = before ++ o :: (inside ++ c :: rest) ∧ o.line = e.keyLine ∧
    Opens (Accepted (Text.lines text) (opensRecord e.key) e.keyLine) before o ∧
    Matches [o] inside c ∧ c.line ≤ map.stop

/-- No entry is unbalanced only if the block of every entry is found. -/
theorem isBlockOf_of_unbalanced? (h : unbalanced? text map es = .ok none) :
    ∀ e ∈ es, ∃ search, searchEntry text e = .ok search ∧ isBlockOf map e search = true := by
  induction es with
  | nil => exact List.forall_mem_nil _
  | cons e es ih =>
    rw [unbalanced?] at h
    cases hsearch : searchEntry text e with
    | error f =>
      rw [hsearch] at h
      cases h
    | ok search =>
      rw [hsearch] at h
      by_cases hblock : isBlockOf map e search = true
      · simp only [bind, Except.bind, hblock, if_true] at h
        exact List.forall_mem_cons.2 ⟨⟨search, hsearch, hblock⟩, ih h⟩
      · simp only [bind, Except.bind, hblock] at h
        cases h

theorem opensBlock_of_isBlockOf {search : Search} (h : tokenize text = .ok ts)
    (hsearch : searchEntry text e = .ok search) (hblock : isBlockOf map e search = true) :
    OpensBlock text ts map e := by
  have hjoin : tokenize (Text.joinLines (Text.lines text)) = .ok ts := by
    rwa [Text.joinLines_lines]
  obtain ⟨found, hfound, hregion⟩ := locate_iff (p := opensRecord e.key) e.keyLine hjoin
  rw [searchEntry, hfound] at hsearch
  cases hsearch
  unfold isBlockOf at hblock
  split at hblock
  · next block =>
    obtain ⟨before, o, inside, c, rest, hsplit, hopens, hmatches, rfl⟩ := (hregion block).1 rfl
    rw [Bool.and_eq_true, beq_iff_eq, decide_eq_true_eq] at hblock
    exact ⟨before, o, inside, c, rest, hsplit, hblock.1, hopens, hmatches, hblock.2⟩
  · cases hblock

/-! ## Rendered documents -/

theorem exists_entries_render (o : Options) (rs : List InstanceRecord) :
    ∃ map es, mapRegion? (render o (rs.map InstanceRecord.blockText)) = .ok (some map) ∧
      entries (render o (rs.map InstanceRecord.blockText)) map = .ok es ∧
      es.map Entry.key = rs.map InstanceRecord.key := by
  have hsettled : ∀ b ∈ rs.map InstanceRecord.written, b.Settled := settled_of_mem_written
  obtain ⟨lines, back, -, harranges⟩ := arranges_render o hsettled
  rw [map_text_written] at harranges
  refine ⟨_, _, harranges.mapRegion?, harranges.entries, ?_⟩
  rw [map_key_of_shows harranges.shows, List.map_map]
  exact map_key_written rs

/-- The flaw of a document that is rendered from records, whatever keys it should hold. -/
theorem flaw?_render_eq (o : Options) (rs : List InstanceRecord) (expected : List String) :
    flaw? (render o (rs.map InstanceRecord.blockText)) expected =
      if (rs.map InstanceRecord.key).Nodup then
        if rs.map InstanceRecord.key = expected then .ok none
        else .ok (some (.otherKeys (rs.map InstanceRecord.key) expected))
      else .ok (some (.repeatedKeys (repeatedKeys (rs.map InstanceRecord.key)))) := by
  split
  · next hnodup =>
    split
    · next hkeys =>
      rw [← hkeys]
      exact flaw?_records o hnodup
    · next hkeys =>
      obtain ⟨map, es, hmap, hentries, hheld⟩ := exists_entries_render o rs
      rw [flaw?_eq hmap hentries, hheld, if_pos hnodup, if_neg hkeys]
  · next hnodup =>
    obtain ⟨map, es, hmap, hentries, hheld⟩ := exists_entries_render o rs
    rw [flaw?_eq hmap hentries, hheld, if_neg hnodup]

theorem flaw?_render_iff (o : Options) (rs : List InstanceRecord) :
    flaw? (render o (rs.map InstanceRecord.blockText)) expected = .ok none ↔
      expected = rs.map InstanceRecord.key ∧ expected.Nodup := by
  rw [flaw?_render_eq]
  split
  · next hnodup =>
    split
    · next hkeys => exact iff_of_true rfl ⟨hkeys.symm, hkeys ▸ hnodup⟩
    · next hkeys => exact iff_of_false (by simp) fun h => hkeys h.1.symm
  · next hnodup => exact iff_of_false (by simp) fun h => hnodup (h.1 ▸ h.2)

/-! ## The check -/

/-- A document without a flaw holds exactly the keys that it should, each once, and the line of each
of them opens a block in braces that ends within the map. A document that is rendered from records
has no flaw exactly if it should hold their keys, in order, and these are distinct, and otherwise it
has one. -/
theorem check_sound_and_exact :
    (∀ text expected, flaw? text expected = .ok none →
      keys text = .ok expected ∧ expected.Nodup ∧
        ∃ ts map es, tokenize text = .ok ts ∧ mapRegion? text = .ok (some map) ∧
          IsRegionOf (Accepted (Text.lines text) opensInstanceMap 0) ts map ∧
          entries text map = .ok es ∧ es.map Entry.key = expected ∧
          ∀ e ∈ es, OpensBlock text ts map e) ∧
      ∀ (o : Options) (rs : List InstanceRecord) (expected : List String),
        (flaw? (render o (rs.map InstanceRecord.blockText)) expected = .ok none ↔
          expected = rs.map InstanceRecord.key ∧ expected.Nodup) ∧
        (¬(expected = rs.map InstanceRecord.key ∧ expected.Nodup) →
          ∃ flaw, flaw? (render o (rs.map InstanceRecord.blockText)) expected = .ok (some flaw)) := by
  refine ⟨fun text expected h => ?_, fun o rs expected => ?_⟩
  · obtain ⟨hkeys, hnodup⟩ := keys_of_flaw? h
    obtain ⟨map, es, hmap, hentries⟩ := exists_entries_of_flaw? h
    obtain ⟨ts, hts, hregion⟩ := exists_tokens_of_mapRegion? hmap
    have hheld : es.map Entry.key = expected := by
      rw [keys, mapEntries, hmap] at hkeys
      replace hkeys : (entries text map).map (fun es => es.map Entry.key) = .ok expected := hkeys
      rw [hentries] at hkeys
      exact Except.ok.inj hkeys
    rw [flaw?_eq hmap hentries, hheld, if_pos hnodup, if_pos rfl] at h
    have hbalanced : unbalanced? text map es = .ok none := by
      cases hnone : unbalanced? text map es with
      | error f =>
        rw [hnone] at h
        cases h
      | ok found =>
        rw [hnone] at h
        rw [Option.map_eq_none_iff.1 (Except.ok.inj h)]
    refine ⟨hkeys, hnodup, ts, map, es, hts, hmap, hregion, hentries, hheld, fun e he => ?_⟩
    obtain ⟨search, hsearch, hblock⟩ := isBlockOf_of_unbalanced? hbalanced e he
    exact opensBlock_of_isBlockOf hts hsearch hblock
  · refine ⟨flaw?_render_iff o rs, fun hnot => ?_⟩
    obtain ⟨found, hfound⟩ :
        ∃ found, flaw? (render o (rs.map InstanceRecord.blockText)) expected = .ok found := by
      rw [flaw?_render_eq]
      split_ifs <;> exact ⟨_, rfl⟩
    cases found with
    | none => exact absurd ((flaw?_render_iff o rs).1 hfound) hnot
    | some flaw => exact ⟨flaw, hfound⟩

/-- A document whose keys are the name of an attribute and the name of the map. -/
def awkwardDocument : String :=
  "locals \x7b\n  instances = \x7b\n    tags = \x7b\n      tags = \x7b a = \"\x7d\" \x7d\n    \x7d\n" ++
    "    \"instances\" = \x7b \x7d # \x7b\n  \x7d\n\x7d\n"

theorem check_sound_and_exact_example :
    flaw? awkwardDocument ["tags", "instances"] = .ok none ∧
      keys awkwardDocument = .ok ["tags", "instances"] ∧
      (∃ ts map, ∃ es : List Entry, tokenize awkwardDocument = .ok ts ∧
        es.map Entry.key = ["tags", "instances"] ∧ ∀ e ∈ es, OpensBlock awkwardDocument ts map e) ∧
      ∃ flaw, flaw? (render ⟨"eu-west-1", "~> 5.0", true⟩ []) ["tags"] = .ok (some flaw) := by
  have hflaw : flaw? awkwardDocument ["tags", "instances"] = .ok none := by decide +kernel
  obtain ⟨hsound, hexact⟩ := check_sound_and_exact
  obtain ⟨hkeys, -, ts, map, es, hts, -, -, -, hheld, hblocks⟩ := hsound _ _ hflaw
  exact ⟨hflaw, hkeys, ⟨ts, map, es, hts, hheld, hblocks⟩,
    (hexact ⟨"eu-west-1", "~> 5.0", true⟩ [] ["tags"]).2 fun h => nomatch h.1⟩

end InstanceInventory.Document

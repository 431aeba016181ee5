import InstanceInventory.Proofs.Document.Arrangement
import InstanceInventory.Proofs.Document.Descent

/-! # The brace that matches

* `Opens`: the first opening brace on a line that is accepted.
* `Matches`: the first closing brace at which as many braces are closed as are open.
* `searchTokens_iff`: the region that is found lies between such braces.
* `line_lt_of_tokenize`: the tokens of lines stand on these lines.
* `locates_the_matching_brace`: the search over lines finds the brace that matches, and braces inside
  other tokens do not count.
-/

namespace InstanceInventory.Document
set_option autoImplicit false
open Literal
variable {accepts : Nat → Bool} {ts us rest pre inside : List Token} {t o c : Token} {braces : Nat}
  {r : Region}

/-! ## Braces -/

/-- How many braces tokens open. -/
def opened (ts : List Token) : Nat :=
  ts.countP fun t => t.kind = .openBrace

/-- How many braces tokens close. -/
def closed (ts : List Token) : Nat :=
  ts.countP fun t => t.kind = .closeBrace

@[simp] theorem opened_append (ts us : List Token) : opened (ts ++ us) = opened ts + opened us :=
  List.countP_append

@[simp] theorem closed_append (ts us : List Token) : closed (ts ++ us) = closed ts + closed us :=
  List.countP_append

theorem opened_singleton (t : Token) : opened [t] = if t.kind = .openBrace then 1 else 0 := by
  simp [opened, List.countP_cons]

theorem closed_singleton (t : Token) : closed [t] = if t.kind = .closeBrace then 1 else 0 := by
  simp [closed, List.countP_cons]

/-- A token after others is the first opening brace on a line that is accepted. -/
structure Opens (admits : Nat → Prop) (before : List Token) (o : Token) : Prop where
  kind : o.kind = .openBrace
  admitted : admits o.line
  first : ∀ t ∈ before, t.kind = .openBrace → ¬admits t.line

/-- A token after others is the first closing brace at which, from the tokens `pre` on, as many
braces are closed as are opened. -/
structure Matches (pre inside : List Token) (c : Token) : Prop where
  kind : c.kind = .closeBrace
  balance : opened (pre ++ (inside ++ [c])) = closed (pre ++ (inside ++ [c]))
  first : ∀ us t vs, inside = us ++ t :: vs → t.kind = .closeBrace →
    opened (pre ++ (us ++ [t])) ≠ closed (pre ++ (us ++ [t]))

/-! ## Searching tokens -/

theorem openingBrace?_iff :
    openingBrace? accepts ts = some (o, rest) ↔
      ∃ before, ts = before ++ o :: rest ∧ Opens (accepts · = true) before o := by
  constructor
  · intro h
    induction ts with
    | nil => cases h
    | cons t ts ih =>
      by_cases ht : t.kind = .openBrace ∧ accepts t.line = true
      · rw [openingBrace?_accepted ht.1 ht.2] at h
        cases h
        exact ⟨[], rfl, ht.1, ht.2, List.forall_mem_nil _⟩
      · rw [openingBrace?_passed fun hkind => Bool.eq_false_iff.2 fun haccepts =>
          ht ⟨hkind, haccepts⟩] at h
        obtain ⟨before, rfl, hkind, haccepts, hfirst⟩ := ih h
        exact ⟨t :: before, rfl, hkind, haccepts,
          List.forall_mem_cons.2 ⟨fun hk ha => ht ⟨hk, ha⟩, hfirst⟩⟩
  · rintro ⟨before, rfl, hkind, haccepts, hfirst⟩
    rw [openingBrace?_append fun t ht hk => Bool.eq_false_iff.2 (hfirst t ht hk),
      openingBrace?_accepted hkind haccepts]

/-- A token at which the braces do not balance is passed by. -/
theorem exists_matches_cons
    (ht : t.kind = .closeBrace → opened (pre ++ [t]) ≠ closed (pre ++ [t])) :
    (∃ inside rest, t :: ts = inside ++ c :: rest ∧ Matches pre inside c) ↔
      ∃ inside rest, ts = inside ++ c :: rest ∧ Matches (pre ++ [t]) inside c := by
  constructor
  · rintro ⟨inside, rest, heq, hkind, hbalance, hfirst⟩
    cases inside with
    | nil =>
      cases heq
      exact absurd hbalance (ht hkind)
    | cons u inside =>
      obtain ⟨rfl, rfl⟩ := List.cons.inj heq
      refine ⟨inside, rest, rfl, hkind, by simpa using hbalance, fun us u vs hsplit hu => ?_⟩
      have := hfirst (t :: us) u vs (by rw [hsplit]; rfl) hu
      simpa using this
  · rintro ⟨inside, rest, rfl, hkind, hbalance, hfirst⟩
    refine ⟨t :: inside, rest, rfl, hkind, by simpa using hbalance, fun us u vs hsplit hu => ?_⟩
    cases us with
    | nil =>
      obtain ⟨rfl, -⟩ := List.cons.inj hsplit
      exact ht hu
    | cons w us =>
      obtain ⟨rfl, rfl⟩ := List.cons.inj hsplit
      have := hfirst us u vs rfl hu
      simpa using this

theorem closingBrace?_iff (hpre : opened pre = closed pre + (braces + 1)) :
    closingBrace? braces ts = some c ↔
      ∃ inside rest, ts = inside ++ c :: rest ∧ Matches pre inside c := by
  -- `braces` counts the braces of `pre` that are still open, but for the one to be closed.
  induction ts generalizing pre braces with
  | nil =>
    constructor
    · exact fun h => nomatch h
    · rintro ⟨inside, rest, heq, -⟩
      simp at heq
  | cons t ts ih =>
    by_cases hopen : t.kind = .openBrace
    · have hcount : opened (pre ++ [t]) = closed (pre ++ [t]) + (braces + 1 + 1) := by
        simp only [opened_append, closed_append, opened_singleton, closed_singleton, hopen]
        simp
        omega
      rw [closingBrace?_open hopen, exists_matches_cons fun hk => by simp [hopen] at hk]
      exact ih hcount
    by_cases hclose : t.kind = .closeBrace
    · have hcount : opened (pre ++ [t]) = closed (pre ++ [t]) + braces := by
        simp only [opened_append, closed_append, opened_singleton, closed_singleton, hclose]
        simp
        omega
      cases braces with
      | succ n =>
        rw [closingBrace?_close hclose, exists_matches_cons fun _ => by omega]
        exact ih hcount
      | zero =>
        have hfound : closingBrace? 0 (t :: ts) = some t := by
          rw [closingBrace?.eq_def]
          simp only [hclose]
        rw [hfound]
        constructor
        · intro h
          cases h
          refine ⟨[], ts, rfl, hclose, hcount, fun us u vs hsplit => ?_⟩
          simp at hsplit
        · rintro ⟨inside, rest, heq, hmatches⟩
          cases inside with
          | nil =>
            cases heq
            rfl
          | cons u inside =>
            obtain ⟨rfl, rfl⟩ := List.cons.inj heq
            exact absurd hcount (hmatches.first [] t inside rfl hclose)
    · have hcount : opened (pre ++ [t]) = closed (pre ++ [t]) + (braces + 1) := by
        simp only [opened_append, closed_append, opened_singleton, closed_singleton, if_neg hopen,
          if_neg hclose]
        omega
      rw [closingBrace?_other hopen hclose, exists_matches_cons fun hk => absurd hk hclose]
      exact ih hcount

/-- The region between the first opening brace on a line that is accepted and the brace that matches
it. -/
def IsRegionOf (admits : Nat → Prop) (ts : List Token) (r : Region) : Prop :=
  ∃ before o inside c rest, ts = before ++ o :: (inside ++ c :: rest) ∧ Opens admits before o ∧
    Matches [o] inside c ∧ r = ⟨o.line, c.line, o.stop, c.start⟩

theorem searchTokens_iff :
    (searchTokens accepts ts).region? = some r ↔ IsRegionOf (accepts · = true) ts r := by
  have hcount : ∀ o : Token, o.kind = .openBrace → opened [o] = closed [o] + (0 + 1) := by
    intro o ho
    simp [opened_singleton, closed_singleton, ho]
  constructor
  · intro h
    unfold searchTokens at h
    split at h
    · cases h
    · next o rest hopening =>
      obtain ⟨before, rfl, hopens⟩ := openingBrace?_iff.1 hopening
      split at h
      · cases h
      · next c hclosing =>
        obtain ⟨inside, rest, rfl, hmatches⟩ :=
          (closingBrace?_iff (hcount o hopens.kind)).1 hclosing
        cases h
        exact ⟨before, o, inside, c, rest, rfl, hopens, hmatches, rfl⟩
  · rintro ⟨before, o, inside, c, rest, rfl, hopens, hmatches, rfl⟩
    have hopening : openingBrace? accepts (before ++ o :: (inside ++ c :: rest)) =
        some (o, inside ++ c :: rest) :=
      openingBrace?_iff.2 ⟨before, rfl, hopens⟩
    have hclosing : closingBrace? 0 (inside ++ c :: rest) = some c :=
      (closingBrace?_iff (hcount o hopens.kind)).2 ⟨inside, rest, rfl, hmatches⟩
    rw [searchTokens, hopening]
    dsimp only
    rw [hclosing]
    rfl

/-! ## Searching lines -/

/-- Whether a line is the one at `start` or a later one and satisfies a predicate. -/
def Accepted (lines : List String) (p : String → Bool) (start : Int) (n : Nat) : Prop :=
  start ≤ n ∧ ∃ l, lines[n]? = some l ∧ p l = true

theorem lines_joinLines {lines : List String} (hlines : ∀ l ∈ lines, '\n' ∉ l.toList)
    (hne : lines ≠ []) : Text.lines (Text.joinLines lines) = lines := by
  have hchars : (Text.joinLines lines).toList = ['\n'].intercalate (lines.map String.toList) := by
    rw [Text.joinLines, String.toList_intercalate]
    rfl
  have hsplit : (['\n'].intercalate (lines.map String.toList)).splitOn '\n' =
      lines.map String.toList := by
    refine List.splitOn_intercalate '\n' ?_ (by simpa using hne)
    simpa using hlines
  have hid : String.ofList ∘ String.toList = id := funext fun s => String.ofList_toList
  rw [Text.lines, hchars, Text.lineChars_eq, hsplit, List.map_map, hid, List.map_id]

/-- The tokens of a text stand on its lines. -/
theorem line_lt_of_tokenize {text : String} (h : tokenize text = .ok ts) (ht : t ∈ ts) :
    t.line < (Text.lines text).length := by
  obtain ⟨ps, hps, hlexed, rfl⟩ := exists_pieces h
  replace ht : t ∈ tokensAfter [] ps := ht
  rw [line_of_mem_tokensAfter ht, lineAfterAll_eq_count, List.nil_append, hps, Text.lines,
    List.length_map, Text.length_lineChars]
  have := (List.take_sublist t.start text.toList).count_le '\n'
  omega

theorem passesLines_eq_false {count start : Nat} (h : ∀ t ∈ ts, t.line < count) :
    passesLines count start accepts ts = false := by
  induction ts with
  | nil => rfl
  | cons t ts ih =>
    obtain ⟨ht, hts⟩ := List.forall_mem_cons.1 h
    rw [passesLines, ih hts, decide_eq_false (Nat.not_le.2 ht)]
    simp

theorem accepted_iff {lines : List String} {p : String → Bool} {start n : Nat} :
    (decide (start ≤ n) && (lines[n]?).any p) = true ↔ Accepted lines p start n := by
  rw [Bool.and_eq_true, decide_eq_true_eq, Option.any_eq_true, Accepted]
  exact and_congr_left' Int.ofNat_le.symm

theorem accepted_toNat (lines : List String) (p : String → Bool) (start : Int) :
    Accepted lines p start.toNat = Accepted lines p start :=
  funext fun n => propext (and_congr_left' (by omega))

/-- What the search over lines finds is the region of the first brace that is accepted. -/
theorem locate_iff {lines : List String} {p : String → Bool} (start : Nat)
    (h : tokenize (Text.joinLines lines) = .ok ts) :
    ∃ search, locate lines p start = .ok search ∧
      ∀ r, search.region? = some r ↔ IsRegionOf (Accepted lines p start) ts r := by
  refine ⟨searchTokens (fun n => start ≤ n && (lines[n]?).any p) ts, ?_, fun r => ?_⟩
  · rw [locate, searchText, h]
  · rw [searchTokens_iff]
    simp only [accepted_iff]

/-- Lines without newlines are searched without passing the last of them. -/
theorem locateAmong_iff {lines : List String} {p : String → Bool} (start : Int)
    (hlines : ∀ l ∈ lines, '\n' ∉ l.toList) (h : tokenize (Text.joinLines lines) = .ok ts) :
    ∃ search, locateAmong lines p start.toNat = .ok (some search) ∧
      ∀ r, search.region? = some r ↔ IsRegionOf (Accepted lines p start) ts r := by
  have hline : ∀ t ∈ ts, t.line < lines.length := by
    intro t ht
    rcases eq_or_ne lines [] with rfl | hne
    · cases h
      cases ht
    · have hlt := line_lt_of_tokenize h ht
      rwa [lines_joinLines hlines hne] at hlt
  obtain ⟨search, hsearch, hregion⟩ := locate_iff (p := p) start.toNat h
  refine ⟨search, ?_, fun r => ?_⟩
  · rw [locateAmong, h]
    dsimp only
    rw [passesLines_eq_false hline, if_neg Bool.false_ne_true, hsearch]
    rfl
  · rw [hregion, accepted_toNat]

/-- The map of instances is the region of the first brace on a line that looks like its opening. -/
theorem exists_tokens_of_mapRegion? {text : String} {map : Region}
    (h : mapRegion? text = .ok (some map)) :
    ∃ ts, tokenize text = .ok ts ∧
      IsRegionOf (Accepted (Text.lines text) opensInstanceMap 0) ts map := by
  cases htokens : tokenize text with
  | error f =>
    rw [mapRegion?, findMap, locate_lines, searchText, htokens] at h
    cases f with
    | malformed e => cases h
    | noSuchCharacter n => cases h
  | ok ts =>
    have hjoin : tokenize (Text.joinLines (Text.lines text)) = .ok ts := by
      rwa [Text.joinLines_lines]
    obtain ⟨found, hfound, hregion⟩ := locate_iff (p := opensInstanceMap) 0 hjoin
    rw [mapRegion?, findMap, hfound] at h
    exact ⟨ts, rfl, (hregion map).1 (Except.ok.inj h)⟩

/-- A token that covers the place of another is this token. -/
theorem eq_of_covers {text : String} {b : Token} (h : tokenize text = .ok ts) (ht : t ∈ ts)
    (hb : b ∈ ts) (hle : t.start ≤ b.start) (hlt : b.start < t.stop) : t = b := by
  have hstanding := standing_of_tokenize h
  obtain ⟨before, after, rfl⟩ := List.append_of_mem ht
  rcases List.mem_append.1 hb with hb | hb
  · have hstop := hstanding.le hb (List.mem_cons_self ..)
    have := (hstanding.extent b (List.mem_append_left _ hb)).1
    omega
  · rcases List.mem_cons.1 hb with rfl | hb
    · rfl
    · have := List.rel_of_pairwise_cons (List.pairwise_append.1 hstanding.order).2.1 hb
      omega

/-- The search over lines without newlines finds a region exactly if the first opening brace that is
accepted has a first closing brace at which the braces balance, and the region lies between the two;
and no brace inside another token, be it a string, a heredoc or a comment, is one of the braces. -/
theorem locates_the_matching_brace {lines : List String} {p : String → Bool} (start : Int)
    (hlines : ∀ l ∈ lines, '\n' ∉ l.toList) (h : tokenize (Text.joinLines lines) = .ok ts) :
    (∃ search, locateAmong lines p start.toNat = .ok (some search) ∧
      ∀ r, search.region? = some r ↔
        ∃ before o inside c rest, ts = before ++ o :: (inside ++ c :: rest) ∧
          Opens (Accepted lines p start) before o ∧ Matches [o] inside c ∧
          r = ⟨o.line, c.line, o.stop, c.start⟩) ∧
      ∀ t ∈ ts, ∀ b ∈ ts, b.kind = .openBrace ∨ b.kind = .closeBrace →
        t.start ≤ b.start → b.start < t.stop → t = b :=
  ⟨locateAmong_iff start hlines h, fun _ ht _ hb _ => eq_of_covers h ht hb⟩

/-- Lines with braces in a comment and in a string. -/
def bracedLines : List String :=
  ["a \x7b", "b \x7b # \x7b", "c = \"\x7d\"", "\x7d \x7d", "\x7d"]

/-- The block on the second line ends at the first brace of the fourth. -/
theorem locates_the_matching_brace_example :
    locateAmong bracedLines (fun l => l.toList.head? == some 'b') 0 =
        .ok (some (.found ⟨1, 3, 7, 20⟩)) ∧
      ∃ ts before o inside c rest, tokenize (Text.joinLines bracedLines) = .ok ts ∧
        ts = before ++ o :: (inside ++ c :: rest) ∧ o.line = 1 ∧ c.start = 20 ∧
        Matches [o] inside c := by
  have hfound : locateAmong bracedLines (fun l => l.toList.head? == some 'b') 0 =
      .ok (some (.found ⟨1, 3, 7, 20⟩)) := by
    decide +kernel
  obtain ⟨ts, hts⟩ : ∃ ts, tokenize (Text.joinLines bracedLines) = .ok ts := ⟨_, by cbv⟩
  obtain ⟨⟨search, hsearch, hregion⟩, -⟩ := locates_the_matching_brace
    (p := fun l => l.toList.head? == some 'b') (-2) (by decide) hts
  cases hfound.symm.trans hsearch
  obtain ⟨before, o, inside, c, rest, hsplit, -, hmatches, hr⟩ := (hregion _).1 rfl
  cases o
  cases c
  cases hr
  exact ⟨hfound, ts, before, _, inside, _, rest, hts, hsplit, rfl, rfl, hmatches⟩

end InstanceInventory.Document

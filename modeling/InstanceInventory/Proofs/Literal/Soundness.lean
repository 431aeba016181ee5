import InstanceInventory.Proofs.Literal.Grammar
import Mathlib.Data.List.TakeWhile

/-! # What the parser accepts

* `Parses`: what is read at the head of tokens is derived by the grammar, and what stops the reading
  is a syntax error.
* `readValue_parses`, `readEntry_parses`: the parser accepts nothing but what the grammar derives.
* `exists_of_parseValue`, `refuses_of_parseValue` and the like: the same for whole texts.
-/

namespace InstanceInventory.Literal
set_option autoImplicit false
variable {α : Type} {ts us : List Token} {t : Token} {f : Fault}

/-- What is read at the head of tokens is derived from them, and what stops the reading is a syntax
error. -/
def Parses (derives : List Token → α → Prop) (ts : List Token) :
    Except Fault (α × Shorter ts) → Prop
  | .ok (a, rest) => ∃ us, ts = us ++ rest.1 ∧ derives us a
  | .error f => ∃ e, f = .malformed e

/-! ## Tokens ahead -/

theorem exists_of_skipNewlines (h : skipNewlines ts = t :: us) :
    ∃ ns, Newlines ns ∧ t.kind ≠ .newline ∧ ts = ns ++ t :: us := by
  refine ⟨ts.takeWhile Token.isNewline, fun _ => List.mem_takeWhile_imp, ?_, ?_⟩
  · intro hkind
    have hhead := List.head?_dropWhile_not Token.isNewline ts
    rw [skipNewlines] at h
    rw [h] at hhead
    simp [Token.isNewline, hkind] at hhead
  · rw [← h, skipNewlines, List.takeWhile_append_dropWhile]

/-- A token after newlines. -/
def NextToken (us : List Token) (t : Token) : Prop :=
  ∃ ns, Newlines ns ∧ t.kind ≠ .newline ∧ us = ns ++ [t]

theorem nextToken_parses (ts : List Token) : Parses NextToken ts (nextToken ts) := by
  unfold nextToken
  split
  · exact ⟨_, rfl⟩
  · next t rest h =>
    obtain ⟨ns, hns, ht, hts⟩ := exists_of_skipNewlines h
    exact ⟨ns ++ [t], by simp [hts], ns, hns, ht, rfl⟩

/-- What is made of the next token: it is read, or what stops the reading is a syntax error. -/
theorem nextToken_cases (ts : List Token) :
    (∃ e, nextToken ts = .error (.malformed e)) ∨
      ∃ ns t rest, ∃ h : rest.length < ts.length, nextToken ts = .ok (t, ⟨rest, h⟩) ∧
        Newlines ns ∧ t.kind ≠ .newline ∧ ts = ns ++ t :: rest := by
  have hparses := nextToken_parses ts
  cases h : nextToken ts with
  | error f =>
    rw [h] at hparses
    obtain ⟨e, rfl⟩ := hparses
    exact .inl ⟨e, rfl⟩
  | ok r =>
    obtain ⟨t, rest, lt⟩ := r
    rw [h] at hparses
    obtain ⟨us, hts, ns, hns, ht, rfl⟩ := hparses
    exact .inr ⟨ns, t, rest, lt, rfl, hns, ht, by simpa using hts⟩

theorem readKey_cases (ts : List Token) :
    (∃ e, readKey ts = .error (.malformed e)) ∨
      ∃ ns k t rest, ∃ h : rest.length < ts.length, readKey ts = .ok (k, t, ⟨rest, h⟩) ∧
        Newlines ns ∧ KeyToken t k ∧ ts = ns ++ t :: rest := by
  unfold readKey
  obtain ⟨e, he⟩ | ⟨ns, t, rest, lt, ht, hns, -, rfl⟩ := nextToken_cases ts
  · exact .inl ⟨e, by simp [he, bind, Except.bind]⟩
  · simp only [ht, bind, Except.bind]
    split
    · next hkind => exact .inr ⟨ns, _, t, rest, lt, rfl, hns, .name hkind, rfl⟩
    · next s template hkind =>
      cases template with
      | true => exact .inl ⟨_, rfl⟩
      | false => exact .inr ⟨ns, _, t, rest, lt, rfl, hns, .quoted hkind, rfl⟩
    · exact .inl ⟨_, rfl⟩

theorem readAssignment_cases (ts : List Token) :
    (∃ e, readAssignment ts = .error (.malformed e)) ∨
      ∃ ns s rest, ∃ h : rest.length < ts.length, readAssignment ts = .ok ⟨rest, h⟩ ∧
        Newlines ns ∧ (s.kind = .equals ∨ s.kind = .colon) ∧ ts = ns ++ s :: rest := by
  unfold readAssignment
  obtain ⟨e, he⟩ | ⟨ns, s, rest, lt, hs, hns, -, rfl⟩ := nextToken_cases ts
  · exact .inl ⟨e, by simp [he, bind, Except.bind]⟩
  · simp only [hs, bind, Except.bind]
    split
    · next hkind => exact .inr ⟨ns, s, rest, lt, rfl, hns, .inl hkind, rfl⟩
    · next hkind => exact .inr ⟨ns, s, rest, lt, rfl, hns, .inr hkind, rfl⟩
    · exact .inl ⟨_, rfl⟩

theorem readNegative_cases (ts : List Token) :
    (∃ e, readNegative ts = .error (.malformed e)) ∨
      ∃ ns u n rest, ∃ h : rest.length < ts.length,
        readNegative ts = .ok (.number (Number.neg n), ⟨rest, h⟩) ∧
        Newlines ns ∧ u.kind = .number n ∧ ts = ns ++ u :: rest := by
  unfold readNegative
  obtain ⟨e, he⟩ | ⟨ns, u, rest, lt, hu, hns, -, rfl⟩ := nextToken_cases ts
  · exact .inl ⟨e, by simp [he, bind, Except.bind]⟩
  · simp only [hu, bind, Except.bind]
    split
    · next n hkind => exact .inr ⟨ns, u, n, rest, lt, rfl, hns, hkind, rfl⟩
    · exact .inl ⟨_, rfl⟩

/-! ## Values -/

theorem Newlines.append {ns ms : List Token} (h : Newlines ns) (h' : Newlines ms) :
    Newlines (ns ++ ms) :=
  List.forall_mem_append.2 ⟨h, h'⟩

/-- A value after newlines. -/
def NextValue (us : List Token) (v : Value) : Prop :=
  ∃ ns ws, Newlines ns ∧ ValueTokens ws v ∧ us = ns ++ ws

/-- An entry after newlines. -/
def NextEntry (us : List Token) (e : String × Value) : Prop :=
  ∃ ns ws, Newlines ns ∧ EntryTokens ws e.1 e.2 ∧ us = ns ++ ws

/-- Items after those already read. -/
def MoreItems (read : List Value) (us : List Token) (vs : List Value) : Prop :=
  ∃ new, vs = read ++ new ∧ ItemTokens us new

/-- Fields with new keys after those already read. -/
def MoreFields (read : Fields) (us : List Token) (fs : Fields) : Prop :=
  ∃ new, fs = read ++ new ∧ FieldTokens us new ∧
    ((read.map Prod.fst).Nodup → (fs.map Prod.fst).Nodup)

mutual

/-- The parser accepts no value but what the grammar derives. -/
theorem readValue_parses (ts : List Token) : Parses NextValue ts (readValue ts) := by
  rw [readValue]
  obtain ⟨e, he⟩ | ⟨ns, t, rest, lt, ht, hns, -, rfl⟩ := nextToken_cases ts
  · simp only [he, bind, Except.bind]
    exact ⟨e, rfl⟩
  simp only [ht, bind, Except.bind]
  have hatom : ∀ v, AtomToken t v → Parses NextValue (ns ++ t :: rest) (.ok (v, ⟨rest, lt⟩)) :=
    fun v hv => ⟨ns ++ [t], by simp, ns, [t], hns, .atom hv, rfl⟩
  split
  · next hkind =>
    have hfields := readObject_parses [] rest
    cases h : readObject [] rest with
    | error f =>
      rw [h] at hfields
      exact hfields
    | ok r =>
      obtain ⟨fs, rest', lt'⟩ := r
      rw [h] at hfields
      obtain ⟨us, hrest, new, rfl, hus, hnodup⟩ := hfields
      refine ⟨ns ++ t :: us, by simp [hrest], ns, t :: us, hns, ?_, rfl⟩
      exact .object hkind hus (hnodup List.nodup_nil)
  · next hkind =>
    have hitems := readTuple_parses [] rest
    cases h : readTuple [] rest with
    | error f =>
      rw [h] at hitems
      exact hitems
    | ok r =>
      obtain ⟨vs, rest', lt'⟩ := r
      rw [h] at hitems
      obtain ⟨us, hrest, new, rfl, hus⟩ := hitems
      exact ⟨ns ++ t :: us, by simp [hrest], ns, t :: us, hns, .list hkind hus, rfl⟩
  · next s template hkind =>
    cases template with
    | true => exact ⟨_, rfl⟩
    | false => exact hatom _ (.quoted hkind)
  · next s hkind => exact hatom _ (.heredoc hkind)
  · next n hkind => exact hatom _ (.number hkind)
  · next hkind =>
    split
    · next hminus =>
      obtain ⟨e, he⟩ | ⟨ms, u, n, rest', lt', hu, hms, hn, rfl⟩ := readNegative_cases rest
      · simp only [he]
        exact ⟨e, rfl⟩
      · simp only [hu]
        exact ⟨ns ++ t :: (ms ++ [u]), by simp, ns, _, hns,
          .negative hkind (by simpa using hminus) hms hn, rfl⟩
    · exact ⟨_, rfl⟩
  · next hkind =>
    split
    · next hword => exact hatom _ (.yes hkind (by simpa using hword))
    · split
      · next hword => exact hatom _ (.no hkind (by simpa using hword))
      · split
        · next hword => exact hatom _ (.null hkind (by simpa using hword))
        · exact ⟨_, rfl⟩
  · exact ⟨_, rfl⟩
termination_by 3 * ts.length
decreasing_by all_goals subst_vars; simp; omega

theorem readObject_parses (read : Fields) (ts : List Token) :
    Parses (MoreFields read) ts (readObject read ts) := by
  rw [readObject]
  split
  · exact ⟨_, rfl⟩
  next t rest hskip =>
  obtain ⟨ns, hns, ht, hts⟩ := exists_of_skipNewlines hskip
  split
  · next hkind =>
    exact ⟨ns ++ [t], by simp [hts], [], (List.append_nil _).symm, .close hns hkind, id⟩
  · have hentry := readEntry_parses (t :: rest)
    simp only [Bool.false_eq_true, if_false, bind, Except.bind]
    cases h : readEntry (t :: rest) with
    | error f =>
      rw [h] at hentry
      exact hentry
    | ok r =>
      obtain ⟨⟨k, v⟩, rest, lt⟩ := r
      rw [h] at hentry
      obtain ⟨us, hus, ms, ws, hms, hws, rfl⟩ := hentry
      dsimp only at hus hws ⊢
      have hblank := hns.append hms
      split
      · exact ⟨_, rfl⟩
      next hnew =>
      have hkeys : (read.map Prod.fst).Nodup → ((read ++ [(k, v)]).map Prod.fst).Nodup := by
        intro hread
        rw [List.map_append, List.map_singleton, List.nodup_append]
        refine ⟨hread, by simp, fun key hkey j hj => ?_⟩
        rintro rfl
        obtain ⟨e, he, rfl⟩ := List.mem_map.1 hkey
        exact hnew (List.any_eq_true.2 ⟨e, he, by simpa using List.mem_singleton.1 hj⟩)
      split
      · exact ⟨_, rfl⟩
      next after rest =>
      have hshort : rest.length < ts.length := by
        have := congrArg List.length hts
        simp only [List.length_append, List.length_cons] at this lt
        omega
      -- Further fields are read alike after a comma and after a newline.
      have hmore : after.kind = .comma ∨ after.kind = .newline →
          ∀ x, Parses (MoreFields (read ++ [(k, v)])) rest x →
            Parses (MoreFields read) ts (x.bind fun r => .ok (r.1, ⟨r.2.1, Nat.lt_trans r.2.2 hshort⟩)) := by
        intro hkind x hx
        cases x with
        | error f => exact hx
        | ok r =>
          obtain ⟨fs, rest', lt'⟩ := r
          obtain ⟨vs, hvs, new, rfl, hnew, hnodup⟩ := hx
          exact ⟨(ns ++ ms) ++ (ws ++ after :: vs), by simp [hts, hus, hvs], (k, v) :: new, by simp,
            .more hblank hws hkind hnew, fun h => hnodup (hkeys h)⟩
      split
      · next hkind => exact hmore (.inl hkind) _ (readObject_parses _ rest)
      · next hkind => exact hmore (.inr hkind) _ (readObject_parses _ rest)
      · next hkind =>
        exact ⟨(ns ++ ms) ++ (ws ++ [after]), by simp [hts, hus], [(k, v)], rfl,
          .last hblank hws hkind, hkeys⟩
      · exact ⟨_, rfl⟩
termination_by 3 * ts.length + 2
decreasing_by
  · have := congrArg List.length hts
    simp only [List.length_append, List.length_cons] at this ⊢
    omega
  all_goals omega

theorem readTuple_parses (read : List Value) (ts : List Token) :
    Parses (MoreItems read) ts (readTuple read ts) := by
  rw [readTuple]
  split
  · exact ⟨_, rfl⟩
  next t rest hskip =>
  obtain ⟨ns, hns, ht, hts⟩ := exists_of_skipNewlines hskip
  split
  · next hkind =>
    exact ⟨ns ++ [t], by simp [hts], [], (List.append_nil _).symm, .close hns hkind⟩
  · have hvalue := readValue_parses (t :: rest)
    simp only [Bool.false_eq_true, if_false, bind, Except.bind]
    cases h : readValue (t :: rest) with
    | error f =>
      rw [h] at hvalue
      exact hvalue
    | ok r =>
      obtain ⟨v, rest, lt⟩ := r
      rw [h] at hvalue
      obtain ⟨us, hus, ms, ws, hms, hws, rfl⟩ := hvalue
      dsimp only at hus hws ⊢
      have hblank := hns.append hms
      split
      · exact ⟨_, rfl⟩
      next after rest hskip' =>
      obtain ⟨xs, hxs, hafter, hrest⟩ := exists_of_skipNewlines hskip'
      have hshort : rest.length < ts.length := by
        have hlength := congrArg List.length hts
        have hlength' := congrArg List.length hrest
        simp only [List.length_append, List.length_cons] at hlength hlength' lt
        omega
      have hmore : after.kind = .comma → ∀ x, Parses (MoreItems (read ++ [v])) rest x →
          Parses (MoreItems read) ts (x.bind fun r => .ok (r.1, ⟨r.2.1, Nat.lt_trans r.2.2 hshort⟩)) := by
        intro hkind x hx
        cases x with
        | error f => exact hx
        | ok r =>
          obtain ⟨vs, rest', lt'⟩ := r
          obtain ⟨ys, hys, new, rfl, hnew⟩ := hx
          exact ⟨(ns ++ ms) ++ (ws ++ (xs ++ after :: ys)), by simp [hts, hus, hrest, hys], v :: new,
            by simp, .more hblank hws hxs hkind hnew⟩
      split
      · next hkind => exact hmore hkind _ (readTuple_parses _ rest)
      · next hkind =>
        exact ⟨(ns ++ ms) ++ (ws ++ (xs ++ [after])), by simp [hts, hus, hrest], [v], rfl,
          .last hblank hws hxs hkind⟩
      · exact ⟨_, rfl⟩
termination_by 3 * ts.length + 2
decreasing_by
  · have := congrArg List.length hts
    simp only [List.length_append, List.length_cons] at this ⊢
    omega
  all_goals omega

theorem readEntry_parses (ts : List Token) : Parses NextEntry ts (readEntry ts) := by
  rw [readEntry]
  obtain ⟨e, he⟩ | ⟨ns, k, t, rest, lt, ht, hns, hk, rfl⟩ := readKey_cases ts
  · simp only [he, bind, Except.bind]
    exact ⟨e, rfl⟩
  simp only [ht, bind, Except.bind]
  obtain ⟨e, he⟩ | ⟨ms, s, rest, lt', hs, hms, hsign, rfl⟩ := readAssignment_cases rest
  · simp only [he]
    exact ⟨e, rfl⟩
  simp only [hs]
  have hvalue := readValue_parses rest
  cases h : readValue rest with
  | error f =>
    rw [h] at hvalue
    exact hvalue
  | ok r =>
    obtain ⟨v, rest', lt''⟩ := r
    rw [h] at hvalue
    obtain ⟨us, hrest, xs, ws, hxs, hws, rfl⟩ := hvalue
    exact ⟨ns ++ t :: (ms ++ s :: (xs ++ ws)), by simp [hrest], ns, _, hns,
      .mk hk hms hsign hxs hws, rfl⟩
termination_by 3 * ts.length + 1
decreasing_by
  have := Nat.lt_trans lt' lt
  subst_vars
  omega

end

/-! ## Texts -/

theorem newlines_of_skipNewlines (h : (skipNewlines ts).isEmpty = true) : Newlines ts := by
  rw [skipNewlines, List.isEmpty_iff, List.dropWhile_eq_nil_iff] at h
  exact h

theorem exists_of_readValue_error (h : readValue ts = .error f) : ∃ e, f = .malformed e := by
  have hparses := readValue_parses ts
  rwa [h] at hparses

theorem exists_of_readEntry_error (h : readEntry ts = .error f) : ∃ e, f = .malformed e := by
  have hparses := readEntry_parses ts
  rwa [h] at hparses

/-- What stops the reading of a text is a syntax error, or keeps it from being split into tokens. -/
def Refuses (text : String) (f : Fault) : Prop :=
  (∃ e, f = .malformed e) ∨ tokenize text = .error f

theorem significantTokens_error {text : String} (h : significantTokens text = .error f) :
    tokenize text = .error f := by
  unfold significantTokens at h
  cases ht : tokenize text with
  | error e =>
    rw [ht] at h
    exact h
  | ok ts =>
    rw [ht] at h
    cases h

/-- A text that is read as a value is written by the tokens of the value, with newlines around
them. -/
theorem exists_of_parseValue {text : String} {v : Value} (h : parseValue text = .ok v) :
    ∃ ns ts ms, significantTokens text = .ok (ns ++ (ts ++ ms)) ∧ Newlines ns ∧ ValueTokens ts v ∧
      Newlines ms := by
  unfold parseValue at h
  cases htokens : significantTokens text with
  | error f => simp [htokens, bind, Except.bind] at h
  | ok ts =>
    have hvalue := readValue_parses ts
    cases hread : readValue ts with
    | error f => simp [htokens, hread, bind, Except.bind] at h
    | ok r =>
      obtain ⟨w, rest, lt⟩ := r
      rw [hread] at hvalue
      obtain ⟨us, hus, ns, ws, hns, hws, rfl⟩ := hvalue
      simp only [htokens, hread, bind, Except.bind] at h
      split at h
      · next hrest =>
        cases h
        exact ⟨ns, ws, rest, by simp [hus], hns, hws, newlines_of_skipNewlines hrest⟩
      · cases h

theorem refuses_of_parseValue {text : String} (h : parseValue text = .error f) : Refuses text f := by
  unfold parseValue at h
  cases htokens : significantTokens text with
  | error g =>
    rw [htokens] at h
    cases h
    exact .inr (significantTokens_error htokens)
  | ok ts =>
    cases hread : readValue ts with
    | error g =>
      simp only [htokens, hread, bind, Except.bind] at h
      cases h
      exact .inl (exists_of_readValue_error hread)
    | ok r =>
      simp only [htokens, hread, bind, Except.bind] at h
      split at h
      · cases h
      · cases h
        exact .inl ⟨_, rfl⟩

/-- A text that is read as an entry is written by the tokens of the entry, with newlines around them
and a comma directly after them at most. -/
theorem exists_of_parseEntry {text : String} {e : String × Value} (h : parseEntry text = .ok e) :
    ∃ ns ts cs ms, significantTokens text = .ok (ns ++ (ts ++ (cs ++ ms))) ∧ Newlines ns ∧
      EntryTokens ts e.1 e.2 ∧ (cs = [] ∨ ∃ c, cs = [c] ∧ c.kind = .comma) ∧ Newlines ms := by
  unfold parseEntry at h
  cases htokens : significantTokens text with
  | error f => simp [htokens, bind, Except.bind] at h
  | ok ts =>
    have hentry := readEntry_parses (skipNewlines ts)
    cases hread : readEntry (skipNewlines ts) with
    | error f => simp [htokens, hread, bind, Except.bind] at h
    | ok r =>
      obtain ⟨e', rest, lt⟩ := r
      rw [hread] at hentry
      obtain ⟨us, hus, ns, ws, hns, hws, rfl⟩ := hentry
      have hts : ts = (ts.takeWhile Token.isNewline ++ ns) ++ (ws ++ rest) := by
        have hsplit := List.takeWhile_append_dropWhile (p := Token.isNewline) (l := ts)
        rw [← skipNewlines, hus] at hsplit
        simpa using hsplit.symm
      have hblank : Newlines (ts.takeWhile Token.isNewline ++ ns) :=
        .append (fun _ => List.mem_takeWhile_imp) hns
      simp only [htokens, hread, bind, Except.bind] at h
      cases rest with
      | nil =>
        cases h
        exact ⟨_, ws, [], [], congrArg _ hts, hblank, hws, .inl rfl, Newlines.nil⟩
      | cons t rest =>
        by_cases hkind : t.kind = .comma
        · simp only [hkind, if_true] at h
          split at h
          · next hrest =>
            cases h
            exact ⟨_, ws, [t], rest, congrArg _ hts, hblank, hws, .inr ⟨t, rfl, hkind⟩,
              newlines_of_skipNewlines hrest⟩
          · cases h
        · simp only [Bool.false_eq_true, if_false] at h
          split at h
          · next hrest =>
            cases h
            exact ⟨_, ws, [], t :: rest, congrArg _ hts, hblank, hws, .inl rfl,
              newlines_of_skipNewlines hrest⟩
          · cases h

theorem refuses_of_parseEntry {text : String} (h : parseEntry text = .error f) : Refuses text f := by
  unfold parseEntry at h
  cases htokens : significantTokens text with
  | error g =>
    rw [htokens] at h
    cases h
    exact .inr (significantTokens_error htokens)
  | ok ts =>
    cases hread : readEntry (skipNewlines ts) with
    | error g =>
      simp only [htokens, hread, bind, Except.bind] at h
      cases h
      exact .inl (exists_of_readEntry_error hread)
    | ok r =>
      obtain ⟨e, rest, lt⟩ := r
      simp only [htokens, hread, bind, Except.bind] at h
      cases rest with
      | nil => cases h
      | cons t rest =>
        by_cases hkind : t.kind = .comma
        all_goals
          simp only [hkind, if_true, Bool.false_eq_true, if_false] at h
          split at h
          · cases h
          · cases h
            exact .inl ⟨_, rfl⟩

end InstanceInventory.Literal

import InstanceInventory.Proofs.Document.Block

/-! # What the scan of a region can meet

* `valueEnd_split`, `entryTail_split`: a value and what follows it, cut off from the tokens after
  them.
* `Scan`: the steps of the scan of a region, one case for each.
* `scan_itemsFrom`: the scan of a region takes no other steps.
-/

namespace InstanceInventory.Document
set_option autoImplicit false
open Literal (Token)
variable {cs : List Char} {comment : Option Nat} {ts us : List Token} {t : Token}

/-! ## Values -/

/-- How deep brackets are open after tokens. -/
def depthFrom (depth : Int) (ts : List Token) : Int :=
  ts.foldl depthAfter depth

@[simp] theorem depthFrom_nil (depth : Int) : depthFrom depth [] = depth := rfl

@[simp] theorem depthFrom_cons (depth : Int) (t : Token) (ts : List Token) :
    depthFrom depth (t :: ts) = depthFrom (depthAfter depth t) ts := rfl

@[simp] theorem depthFrom_append (depth : Int) (ts us : List Token) :
    depthFrom depth (ts ++ us) = depthFrom (depthFrom depth ts) us :=
  List.foldl_append

/-- The last token of substance, or another where there is none. -/
def lastSubstance (last : Option Token) (ts : List Token) : Option Token :=
  ts.foldl (fun last t => if isSubstance t then some t else last) last

@[simp] theorem lastSubstance_nil (last : Option Token) : lastSubstance last [] = last := rfl

@[simp] theorem lastSubstance_cons (last : Option Token) (t : Token) (ts : List Token) :
    lastSubstance last (t :: ts) = lastSubstance (if isSubstance t then some t else last) ts := rfl

theorem mem_of_lastSubstance {last : Option Token} (h : lastSubstance last ts = some t) :
    t ∈ ts ∨ last = some t := by
  induction ts generalizing last with
  | nil => exact .inr h
  | cons u us ih =>
    rw [lastSubstance_cons] at h
    rcases ih h with hmem | heq
    · exact .inl (List.mem_cons_of_mem u hmem)
    · split at heq
      · cases heq
        exact .inl (List.mem_cons_self ..)
      · exact .inr heq

theorem isSubstance_of_lastSubstance_none {last : Option Token}
    (h : lastSubstance last ts = none) : ∀ t ∈ ts, isSubstance t = false := by
  have hlast : ∀ {us : List Token} {u : Token}, lastSubstance (some u) us ≠ none := by
    intro us
    induction us with
    | nil => exact fun h => nomatch h
    | cons w ws ih =>
      intro u hu
      rw [lastSubstance_cons] at hu
      split at hu
      · exact ih hu
      · exact ih hu
  induction ts generalizing last with
  | nil => exact List.forall_mem_nil _
  | cons u us ih =>
    rw [lastSubstance_cons] at h
    by_cases hu : isSubstance u = true
    · rw [if_pos hu] at h
      exact absurd h hlast
    · rw [if_neg hu] at h
      exact List.forall_mem_cons.2 ⟨by simpa using hu, ih h⟩

/-- A value ends at depth zero before a token that can end it, or where the tokens end. -/
def EndsAt (depth : Int) (last : Option Token) (rest : List Token) : Prop :=
  rest = [] ∨ depth = 0 ∧ last.isSome = true ∧ ∃ t us, rest = t :: us ∧ endsValue t = true

theorem valueEnd_split (depth : Int) (last : Option Token) (passed : Nat) (ts : List Token) :
    ∃ body rest, ts = body ++ rest ∧
      valueEnd depth last passed ts = ⟨lastSubstance last body, passed + body.length, rest⟩ ∧
      EndsAt (depthFrom depth body) (lastSubstance last body) rest := by
  induction ts generalizing depth last passed with
  | nil => exact ⟨[], [], rfl, rfl, .inl rfl⟩
  | cons t ts ih =>
    by_cases hend : depth = 0 ∧ last.isSome ∧ endsValue t
    · refine ⟨[], t :: ts, rfl, ?_, .inr ⟨hend.1, hend.2.1, t, ts, rfl, hend.2.2⟩⟩
      rw [valueEnd, if_pos hend]
      rfl
    · obtain ⟨body, rest, rfl, hvalue, hends⟩ := ih (depthAfter depth t)
        (if isSubstance t then some t else last) (passed + 1)
      refine ⟨t :: body, rest, rfl, ?_, hends⟩
      rw [valueEnd, if_neg hend, hvalue, lastSubstance_cons, List.length_cons, Nat.add_assoc,
        Nat.add_comm 1]

/-! ## What follows a value -/

/-- Tokens that may belong to an entry after its value: a comma at most, then a comment at most. -/
def IsTail (tail : List Token) : Prop :=
  ∃ commas comments, tail = commas ++ comments ∧
    (commas = [] ∨ ∃ t, commas = [t] ∧ t.kind = .comma) ∧
    (comments = [] ∨ ∃ t, comments = [t] ∧ t.kind = .comment)

theorem entryTail_split (last : Token) (ts : List Token) :
    ∃ tail rest, ts = tail ++ rest ∧ IsTail tail ∧
      entryTail last.line last.stop ts =
        (((last :: tail).getLast (List.cons_ne_nil _ _)).stop, tail.length) := by
  cases ts with
  | nil => exact ⟨[], [], rfl, ⟨[], [], rfl, .inl rfl, .inl rfl⟩, rfl⟩
  | cons t ts =>
    by_cases hcomma : t.kind = .comma
    · cases ts with
      | nil =>
        exact ⟨[t], [], rfl, ⟨[t], [], rfl, .inr ⟨t, rfl, hcomma⟩, .inl rfl⟩,
          by simp [entryTail, hcomma]⟩
      | cons u us =>
        by_cases hcomment : u.kind = .comment ∧ u.line = last.line
        · exact ⟨[t, u], us, rfl, ⟨[t], [u], rfl, .inr ⟨t, rfl, hcomma⟩,
            .inr ⟨u, rfl, hcomment.1⟩⟩, by simp [entryTail, hcomma, hcomment]⟩
        · refine ⟨[t], u :: us, rfl, ⟨[t], [], rfl, .inr ⟨t, rfl, hcomma⟩, .inl rfl⟩, ?_⟩
          by_cases hkind : u.kind = .comment
          · have hline : u.line ≠ last.line := fun h => hcomment ⟨hkind, h⟩
            simp [entryTail, hcomma, hkind, hline]
          · simp [entryTail, hcomma]
    · by_cases hcomment : t.kind = .comment ∧ t.line = last.line
      · exact ⟨[t], ts, rfl, ⟨[], [t], rfl, .inl rfl, .inr ⟨t, rfl, hcomment.1⟩⟩,
          by simp [entryTail, hcomment]⟩
      · refine ⟨[], t :: ts, rfl, ⟨[], [], rfl, .inl rfl, .inl rfl⟩, ?_⟩
        by_cases hkind : t.kind = .comment
        · have hline : t.line ≠ last.line := fun h => hcomment ⟨hkind, h⟩
          simp [entryTail, hkind, hline]
        · simp [entryTail]

/-- Where nothing that follows a value belongs to its entry, no comma follows, and no comment on the
line of the value. -/
theorem head_of_entryTail {line stop : Nat} (h : (entryTail line stop ts).2 = 0) :
    ∀ t ∈ ts.head?, t.kind ≠ .comma ∧ (t.kind = .comment → t.line ≠ line) := by
  cases ts with
  | nil => simp
  | cons t ts =>
    have hcomma : t.kind ≠ .comma := by
      intro hcomma
      simp only [entryTail, hcomma] at h
      split at h
      · split_ifs at h
      · cases h
    intro u hu
    obtain rfl : t = u := by simpa using hu
    refine ⟨hcomma, fun hcomment hline => ?_⟩
    simp [entryTail, hcomment, hline] at h

/-! ## Steps -/

/-- Whether a token is a key before a sign, the first of some tokens. -/
def beginsEntry (t : Token) (ts : List Token) : Bool :=
  (keyOf? t).isSome && ts.head?.any isAssignment

/-- The scan of tokens, step by step. -/
inductive Scan (cs : List Char) : Option Nat → List Token → List Item → Prop
  | done {comment : Option Nat} : Scan cs comment [] []
  | newline {comment : Option Nat} {t : Token} {ts : List Token} {is : List Item}
    (kind : t.kind = .newline) (rest : Scan cs comment ts is) : Scan cs comment (t :: ts) is
  | comment {comment : Option Nat} {t : Token} {ts : List Token} {is : List Item}
    (kind : t.kind = .comment) (rest : Scan cs (commentStart cs comment t) ts is) :
    Scan cs comment (t :: ts) is
  | pass {comment : Option Nat} {t : Token} {ts : List Token} {is : List Item}
    (substance : isSubstance t = true) (other : beginsEntry t ts = false)
    (rest : Scan cs none ts is) : Scan cs comment (t :: ts) is
  | valueless {comment : Option Nat} {k : String} {key sign : Token} {blank : List Token}
    (name : keyOf? key = some k) (assigns : isAssignment sign = true)
    (empty : ∀ t ∈ blank, isSubstance t = false) :
    Scan cs comment (key :: sign :: blank) [.valueless key.text key.line]
  | entry {comment : Option Nat} {k : String} {key sign last : Token}
    {body tail ts : List Token} {is : List Item}
    (name : keyOf? key = some k) (assigns : isAssignment sign = true)
    (substance : lastSubstance none body = some last)
    (ends : EndsAt (depthFrom 0 body) (some last) (tail ++ ts)) (follows : IsTail tail)
    (whole : tail = [] → ∀ t ∈ ts.head?, t.kind ≠ .comma ∧ (t.kind = .comment → t.line ≠ last.line))
    (rest : Scan cs none ts is) :
    Scan cs comment (key :: sign :: (body ++ (tail ++ ts)))
      (.entry ⟨k, key.line, entryStart cs comment key,
        ((last :: tail).getLast (List.cons_ne_nil _ _)).stop⟩ :: is)

theorem itemsFrom_pass (ht : isSubstance t = true) (h : beginsEntry t ts = false) :
    itemsFrom cs comment 0 (t :: ts) = itemsFrom cs none 0 ts := by
  rw [itemsFrom.eq_def cs comment 0 (t :: ts)]
  dsimp only
  split
  · next hk => simp [isSubstance, hk] at ht
  · next hk => simp [isSubstance, hk] at ht
  · split
    · next hkey =>
      rw [beginsEntry, hkey] at h
      rw [if_neg (by simpa using h)]
    · rfl

theorem itemsFrom_valueless {k : String} {key sign : Token} {value rest : List Token} {passed : Nat}
    (hkey : keyOf? key = some k) (hsign : isAssignment sign = true)
    (hvalue : valueEnd 0 none 0 value = ⟨none, passed, rest⟩) :
    itemsFrom cs comment 0 (key :: sign :: value) =
      .valueless key.text key.line :: itemsFrom cs none (1 + passed) (sign :: value) := by
  rw [itemsFrom.eq_def cs comment 0 (key :: sign :: value)]
  dsimp only
  split
  · next hk => exact absurd hk (keyOf?_kind hkey).1
  · next hk => exact absurd hk (keyOf?_kind hkey).2
  · simp only [hkey, hsign, if_true, hvalue]

/-- The scan of tokens takes no other steps. -/
theorem scan_itemsFrom (cs : List Char) (comment : Option Nat) (ts : List Token) :
    Scan cs comment ts (itemsFrom cs comment 0 ts) := by
  induction hn : ts.length using Nat.strongRecOn generalizing comment ts with
  | _ n ih =>
    subst hn
    cases ts with
    | nil => exact .done
    | cons t ts =>
      by_cases hnewline : t.kind = .newline
      · rw [itemsFrom_newline hnewline]
        exact .newline hnewline (ih _ (Nat.lt_succ_self _) _ _ rfl)
      by_cases hcomment : t.kind = .comment
      · rw [itemsFrom_comment hcomment]
        exact .comment hcomment (ih _ (Nat.lt_succ_self _) _ _ rfl)
      have hsubstance : isSubstance t = true := by
        unfold isSubstance
        split
        · next hk => exact absurd hk hnewline
        · next hk => exact absurd hk hcomment
        · rfl
      by_cases hbegins : beginsEntry t ts = true
      · rw [beginsEntry, Bool.and_eq_true, Option.isSome_iff_exists] at hbegins
        obtain ⟨⟨k, hkey⟩, hsign⟩ := hbegins
        cases ts with
        | nil => cases hsign
        | cons sign value =>
          replace hsign : isAssignment sign = true := by simpa using hsign
          obtain ⟨body, rest, rfl, hvalue, hends⟩ := valueEnd_split 0 none 0 value
          rw [Nat.zero_add] at hvalue
          cases hlast : lastSubstance none body with
          | none =>
            rw [hlast] at hvalue hends
            rw [itemsFrom_valueless hkey hsign hvalue]
            rcases hends with rfl | ⟨-, hsome, -⟩
            · have hskip := itemsFrom_skip cs none (sign :: body) []
              rw [List.length_cons, List.append_nil, Nat.add_comm] at hskip
              rw [List.append_nil, hskip]
              exact .valueless hkey hsign (isSubstance_of_lastSubstance_none hlast)
            · cases hsome
          | some last =>
            rw [hlast] at hvalue hends
            obtain ⟨tail, rest, rfl, htail, heq⟩ := entryTail_split last rest
            rw [itemsFrom_assigned cs comment hkey hsign hvalue heq]
            have hwhole : tail = [] → (entryTail last.line last.stop rest).2 = 0 := by
              rintro rfl
              exact congrArg Prod.snd heq
            exact .entry hkey hsign hlast hends htail (fun hnil => head_of_entryTail (hwhole hnil))
              (ih _ (by simp only [List.length_cons, List.length_append]; omega) _ _ rfl)
      · rw [itemsFrom_pass hsubstance (by simpa using hbegins)]
        exact .pass hsubstance (by simpa using hbegins) (ih _ (Nat.lt_succ_self _) _ _ rfl)

end InstanceInventory.Document

import InstanceInventory.Proofs.Literal.Cutoff
import InstanceInventory.Proofs.Literal.Multiline
import InstanceInventory.Proofs.Literal.Soundness
import InstanceInventory.Proofs.Text.Lines
import InstanceInventory.Proofs.Text.Trimmed
import InstanceInventory.Record.Attributes

/-! # Interpolations

* `Interpolates`: characters hold the opening of a template that is not written as an escape.
* `not_interpolates_of_quotedFrom`: a quoted string without a template holds none.
* `interpolates_of_heredoc`: what opens a template in a heredoc stands in its value as it is.
* `interpolations_stand_in_heredocs`: in a text that is read as a literal no quoted string holds an
  interpolation; one that is no comment stands in a heredoc and is read as text.
-/

namespace InstanceInventory.Literal
set_option autoImplicit false
variable {line opened skip : Nat} {c : Char} {cs ds l : List Char} {ls : List (List Char)}
  {prev : Option Char} {read q : QuotedString}

/-! ## Interpolations in characters -/

/-- A sign that opens a template before a brace. -/
def IsMark (c : Char) : Prop :=
  c = '$' ∨ c = '%'

/-- Characters, the first of which follows `prev`, hold the opening of a template: a mark before a
brace. After its like such a mark is an escape. -/
inductive InterpolatesAfter : Option Char → List Char → Prop
  | here {prev : Option Char} {m : Char} {rest : List Char} (mark : IsMark m)
    (single : prev ≠ some m) : InterpolatesAfter prev (m :: '\x7b' :: rest)
  | later {prev : Option Char} {c : Char} {rest : List Char}
    (held : InterpolatesAfter (some c) rest) : InterpolatesAfter prev (c :: rest)

/-- Characters hold the opening of a template. -/
abbrev Interpolates (cs : List Char) : Prop :=
  InterpolatesAfter none cs

theorem not_interpolatesAfter_nil : ¬ InterpolatesAfter prev [] := nofun

theorem interpolatesAfter_cons : InterpolatesAfter prev (c :: cs) ↔
    (IsMark c ∧ prev ≠ some c ∧ cs.head? = some '\x7b') ∨ InterpolatesAfter (some c) cs := by
  constructor
  · rintro (⟨mark, single⟩ | held)
    · exact .inl ⟨mark, single, rfl⟩
    · exact .inr held
  · rintro (⟨mark, single, hbrace⟩ | held)
    · obtain ⟨rest, rfl⟩ := List.head?_eq_some_iff.1 hbrace
      exact .here mark single
    · exact .later held

theorem InterpolatesAfter.mem_brace (h : InterpolatesAfter prev cs) : '\x7b' ∈ cs := by
  induction h with
  | here => simp
  | later _ ih => exact List.mem_cons_of_mem _ ih

theorem InterpolatesAfter.start (h : InterpolatesAfter prev cs) : Interpolates cs := by
  cases h with
  | here mark => exact .here mark nofun
  | later held => exact .later held

/-- After a character that is no mark it does not matter what stood before. -/
theorem interpolatesAfter_iff (hc : ¬ IsMark c) : InterpolatesAfter (some c) cs ↔ Interpolates cs := by
  refine ⟨.start, fun h => ?_⟩
  cases h with
  | here mark =>
    refine .here mark ?_
    rintro ⟨⟩
    exact hc mark
  | later held => exact .later held

theorem not_interpolates_singleton : ¬ Interpolates [c] := by
  rintro (_ | ⟨⟨⟩⟩)

/-- What stands before characters without a brace holds the interpolation. -/
theorem InterpolatesAfter.of_append (h : InterpolatesAfter prev (cs ++ ds)) (hds : '\x7b' ∉ ds) :
    InterpolatesAfter prev cs := by
  induction cs generalizing prev with
  | nil => exact absurd h.mem_brace hds
  | cons c cs ih =>
    rw [List.cons_append, interpolatesAfter_cons] at h
    refine interpolatesAfter_cons.2 (h.imp (fun ⟨hmark, hsingle, hbrace⟩ => ⟨hmark, hsingle, ?_⟩) ih)
    cases cs with
    | nil => exact absurd (List.mem_of_mem_head? hbrace) hds
    | cons d cs => exact hbrace

/-- A newline parts what may hold an interpolation. -/
theorem interpolatesAfter_append_newline : InterpolatesAfter prev (cs ++ '\n' :: ds) ↔
    InterpolatesAfter prev cs ∨ Interpolates ds := by
  have hnewline : ¬ IsMark '\n' := by simp [IsMark]
  induction cs generalizing prev with
  | nil =>
    rw [List.nil_append, interpolatesAfter_cons, interpolatesAfter_iff hnewline]
    simp [hnewline, not_interpolatesAfter_nil]
  | cons c cs ih =>
    have hhead : (cs ++ '\n' :: ds).head? = some '\x7b' ↔ cs.head? = some '\x7b' := by
      cases cs with
      | nil => simp
      | cons d cs => rfl
    have hrest : InterpolatesAfter (some c) (cs ++ '\n' :: ds) ↔
        InterpolatesAfter (some c) cs ∨ Interpolates ds := ih
    rw [List.cons_append, interpolatesAfter_cons, interpolatesAfter_cons, hrest, hhead, or_assoc]

/-- Of lines, each closed by a newline, one holds the interpolation. -/
theorem interpolates_closedChars :
    Interpolates (Text.closedChars ls) ↔ ∃ l ∈ ls, Interpolates l := by
  induction ls with
  | nil => simp [not_interpolatesAfter_nil]
  | cons l ls ih =>
    rw [Text.closedChars_cons, Interpolates, interpolatesAfter_append_newline, ih,
      List.exists_mem_cons_iff]

/-- Blanks may be dropped before an interpolation. -/
theorem InterpolatesAfter.drop_blanks {n : Nat} (h : InterpolatesAfter prev cs)
    (hblank : ∀ d ∈ cs.take n, Text.isBlank d = true) : Interpolates (cs.drop n) := by
  induction n generalizing prev cs with
  | zero => exact h.start
  | succ n ih =>
    cases h with
    | @here _ m rest mark =>
      have hm := hblank m (List.mem_cons_self ..)
      rcases mark with rfl | rfl
      · exact absurd hm (by decide)
      · exact absurd hm (by decide)
    | later held => exact ih held fun d hd => hblank d (List.mem_cons_of_mem _ hd)

/-! ## Quoted strings -/

theorem not_isMark_of_escape {e : Char × Nat} (h : escape line cs = .ok e) :
    ∀ d ∈ cs.take e.2, ¬ IsMark d := by
  intro d hd hmark
  have hall := mem_escape h d hd
  rcases hmark with rfl | rfl
  · exact absurd hall (by decide)
  · exact absurd hall (by decide)

/-- A step that opens no template stands at no single mark before a brace. What it takes along is
either the second of two marks or holds none. -/
theorem single_of_stringStep {decoded : Option Char}
    (h : stringStep opened line [] .done c cs = .ok (.next [] decoded skip)) :
    ¬ (IsMark c ∧ cs.head? = some '\x7b') ∧
      ((∀ d ∈ cs.take skip, ¬ IsMark d) ∨ (skip = 1 ∧ cs.head? = some c)) := by
  unfold stringStep at h
  split_ifs at h with hnewline hquote hslash hmark htwo hone
  · cases h
  · subst hslash
    refine ⟨fun hc => absurd hc.1 (by simp [IsMark]), .inl ?_⟩
    cases he : escape line cs with
    | error f =>
      rw [he] at h
      cases h
    | ok e =>
      rw [he] at h
      cases h
      exact not_isMark_of_escape he
  · cases h
    have hhead : cs.head? = some c := by
      cases cs with
      | nil => cases htwo
      | cons d cs => exact congrArg some (List.cons.inj htwo).1
    refine ⟨fun hc => ?_, .inr ⟨rfl, hhead⟩⟩
    obtain rfl : c = '\x7b' := Option.some.inj (hhead.symm.trans hc.2)
    exact absurd hmark (by decide)
  · cases h
  · cases h
    refine ⟨fun hc => hone ?_, .inl (by simp)⟩
    obtain ⟨rest, rfl⟩ := List.head?_eq_some_iff.1 hc.2
    rfl
  · cases h
    exact ⟨fun hc => hmark hc.1, .inl (by simp)⟩

theorem quoteStep_ne_done {f : Frame} {fs : List Frame} :
    quoteStep opened line (f :: fs) c cs ≠ .ok .done := by
  intro hdone
  cases f with
  | template inner braces =>
    simp only [quoteStep, templateStep] at hdone
    split_ifs at hdone
    · cases hdone
    · cases hdone
    · cases braces with
      | zero => cases hdone
      | succ braces => cases hdone
    · cases hdone
  | quote inner =>
    simp only [quoteStep, stringStep] at hdone
    split_ifs at hdone
    · cases hdone
    · cases hescape : escape line cs with
      | error f =>
        rw [hescape] at hdone
        cases hdone
      | ok e =>
        rw [hescape] at hdone
        cases hdone
    all_goals cases hdone

/-- Inside a template or a string in one, the string that began first holds a template. -/
theorem template_of_frames {f : Frame} {fs : List Frame}
    (h : quotedFrom opened line (f :: fs) read skip cs = .ok q) : q.template = true := by
  have hpush : ∀ c decoded, (read.push (!(f :: fs).isEmpty) c decoded).template = true :=
    fun _ _ => by simp [QuotedString.push]
  cases cs with
  | nil => cases h
  | cons c cs =>
    cases skip with
    | succ skip =>
      rw [quotedFrom] at h
      exact template_of_quotedFrom h (hpush _ _)
    | zero =>
      rw [quotedFrom] at h
      split at h
      · cases h
      · next hdone => exact absurd hdone quoteStep_ne_done
      · exact template_of_quotedFrom h (hpush _ _)

/-- Up to its closing quote, a string without a template holds no interpolation. -/
theorem not_interpolates_of_quotedFrom (h : quotedFrom opened line [] read skip cs = .ok q)
    (hplain : q.template = false)
    (hskip : (∀ d ∈ cs.take skip, ¬ IsMark d) ∨ (skip = 1 ∧ cs.head? = prev)) :
    ¬ InterpolatesAfter prev (cs.take (q.length - read.length)) := by
  induction cs generalizing line read skip prev with
  | nil => cases h
  | cons c cs ih =>
    have hlength := (quotedFrom_length h).1
    obtain ⟨n, hn⟩ : ∃ n, q.length - read.length = n + 1 := ⟨q.length - read.length - 1, by omega⟩
    have hhead : (cs.take n).head? = some '\x7b' → cs.head? = some '\x7b' := by
      cases n with
      | zero =>
        rw [List.take_zero]
        exact fun hnil => absurd hnil (Option.some_ne_none _).symm
      | succ n => cases cs <;> exact id
    have hrest : ∀ {line inside decoded skip},
        quotedFrom opened line [] (read.push inside c decoded) skip cs = .ok q →
        ((∀ d ∈ cs.take skip, ¬ IsMark d) ∨ (skip = 1 ∧ cs.head? = some c)) →
          ¬ InterpolatesAfter (some c) (cs.take n) := by
      intro line inside decoded skip h hskip
      have hlater := ih h hskip
      rwa [show q.length - (read.push inside c decoded).length = n by
        simp only [QuotedString.push]; omega] at hlater
    rw [hn, List.take_succ_cons, interpolatesAfter_cons, not_or]
    cases skip with
    | succ skip =>
      rw [quotedFrom] at h
      rcases hskip with hnone | ⟨hone, hprev⟩
      · rw [List.take_succ_cons, List.forall_mem_cons] at hnone
        exact ⟨fun hc => hnone.1 hc.1, hrest h (.inl hnone.2)⟩
      · obtain rfl : skip = 0 := by omega
        exact ⟨fun hc => hc.2.1 hprev.symm, hrest h (.inl (by simp))⟩
    | zero =>
      rw [quotedFrom] at h
      split at h
      · cases h
      · cases h
        obtain rfl : n = 0 := by simpa using hn.symm
        exact ⟨fun hc => by simpa using hc.2.2, not_interpolatesAfter_nil⟩
      · next frames' decoded skip hstep =>
        cases frames' with
        | cons f fs =>
          rw [template_of_frames h] at hplain
          cases hplain
        | nil =>
          obtain ⟨hsingle, hskip⟩ := single_of_stringStep hstep
          exact ⟨fun hc => hsingle ⟨hc.1, hhead hc.2.2⟩, hrest h hskip⟩

/-! ## Heredocs -/

theorem brace_not_mem_nameChars (cs : List Char) : '\x7b' ∉ nameChars cs := by
  cases cs with
  | nil => exact List.not_mem_nil
  | cons c cs =>
    rw [nameChars]
    split_ifs with hc
    · rw [List.mem_cons, not_or]
      refine ⟨?_, fun hmem => absurd (List.mem_takeWhile_imp hmem) (by decide)⟩
      rintro rfl
      exact absurd hc (by decide)
    · exact List.not_mem_nil

theorem isPrefix_nameChars (cs : List Char) : nameChars cs <+: cs := by
  cases cs with
  | nil => exact List.prefix_rfl
  | cons c cs =>
    rw [nameChars]
    split_ifs
    · exact List.cons_prefix_cons.2 ⟨rfl, List.takeWhile_prefix _⟩
    · exact List.nil_prefix

theorem brace_not_mem_lineEnd {n : Nat} (h : lineEnd? cs = some n) : '\x7b' ∉ cs.take n := by
  unfold lineEnd? at h
  split at h <;> cases h <;> simp

theorem brace_not_mem_opening {o : HeredocOpening} (h : heredocOpening? cs = some o) :
    '\x7b' ∉ cs.take o.length ∧ '\x7b' ∉ o.marker := by
  unfold heredocOpening? at h
  split at h
  · next rest =>
    dsimp only at h
    -- The line is taken apart as it was read: its marks, the marker, blanks and what ends it.
    have htake : ∀ flush k n : Nat, '\x7b' ∉ rest.take flush →
        '\x7b' ∉ ((rest.drop flush).drop (nameChars (rest.drop flush)).length).take k →
        lineEnd? (((rest.drop flush).drop (nameChars (rest.drop flush)).length).drop k) = some n →
        '\x7b' ∉ ('<' :: '<' :: rest).take
          (2 + flush + (nameChars (rest.drop flush)).length + k + n) := by
      intro flush k n hflush hk hn
      rw [show 2 + flush + (nameChars (rest.drop flush)).length + k + n =
        2 + (flush + ((nameChars (rest.drop flush)).length + (k + n))) by omega]
      rw [List.take_add, List.take_add, List.take_add, List.take_add]
      have hmarks : '\x7b' ∉ ('<' :: '<' :: rest).take 2 := by simp
      have hmarker := brace_not_mem_nameChars (rest.drop flush)
      rw [List.prefix_iff_eq_take.1 (isPrefix_nameChars (rest.drop flush))] at hmarker
      have hstop := brace_not_mem_lineEnd hn
      simp only [List.mem_append, not_or]
      exact ⟨hmarks, hflush, hmarker, hk, hstop⟩
    have hblanks : ∀ ds : List Char, '\x7b' ∉ ds.take
        (ds.takeWhile fun c => c == ' ' || c == '\t').length := by
      intro ds hmem
      rw [← List.prefix_iff_eq_take.1 (List.takeWhile_prefix _)] at hmem
      exact absurd (List.mem_takeWhile_imp hmem) (by decide)
    split_ifs at h with hflush hempty hempty
    · obtain ⟨n, hn, rfl⟩ := Option.map_eq_some_iff.1 h
      exact ⟨htake 1 _ n (by simp [hflush]) (hblanks _) hn, brace_not_mem_nameChars _⟩
    · obtain ⟨n, hn, rfl⟩ := Option.map_eq_some_iff.1 h
      exact ⟨htake 0 _ n List.not_mem_nil (hblanks _) hn, brace_not_mem_nameChars _⟩
  · cases h

theorem heredocBody?_eq {marker last : List Char} {lines : List (List Char)}
    (h : heredocBody? marker lines = some (ls, last)) :
    Text.trimChars last = marker ∧ ∃ more, lines = ls ++ last :: more := by
  induction lines generalizing ls with
  | nil => cases h
  | cons l lines ih =>
    rw [heredocBody?] at h
    split_ifs at h with hmarker
    · cases h
      exact ⟨hmarker, lines, rfl⟩
    · obtain ⟨b, hb, he⟩ := Option.map_eq_some_iff.1 h
      cases he
      obtain ⟨hlast, more, rfl⟩ := ih hb
      exact ⟨hlast, more, rfl⟩

theorem closedLength_eq (ls : List (List Char)) : closedLength ls = (Text.closedChars ls).length := by
  induction ls with
  | nil => rfl
  | cons l ls ih =>
    rw [closedLength, ih, Text.closedChars_cons, List.length_append, List.length_cons]
    omega

/-- A heredoc is written as its opening, its lines and the line that closes it. -/
theorem heredoc_eq {o : HeredocOpening} {b : List Char × Nat} (ho : heredocOpening? cs = some o)
    (h : heredoc line cs o = .ok b) : ∃ ls last,
      cs.take b.2 = cs.take o.length ++ '\n' :: (Text.closedChars ls ++ last) ∧
      Text.trimChars last = o.marker ∧
      b.1 = heredocValue o.flush (ls.map (Text.dropEndWhile (· == '\r'))) := by
  have hstop := heredocOpening?_stop ho
  unfold heredoc at h
  dsimp only at h
  split at h
  · cases h
  · next ls last hbody =>
    cases h
    split at hbody
    · cases hbody
    · next d rest hdrop =>
      rw [hdrop] at hstop
      obtain ⟨rest', hrest'⟩ := hstop.resolve_left (by simp)
      obtain ⟨rfl, rfl⟩ := List.cons.inj hrest'
      obtain ⟨hlast, more, hlines⟩ := heredocBody?_eq hbody
      obtain ⟨tail, htail⟩ := Text.exists_intercalate ls last more
      rw [← hlines, Text.intercalate_lineChars] at htail
      refine ⟨ls, last, ?_, hlast, rfl⟩
      have hlength : o.length + 1 + closedLength ls + last.length =
          o.length + ((Text.closedChars ls ++ last).length + 1) := by
        rw [closedLength_eq, List.length_append]
        omega
      rw [hlength, List.take_add, hdrop, List.take_succ_cons, htail, ← List.append_assoc,
        List.take_left]

/-- Stripping the common indentation takes blanks only. -/
theorem isBlank_of_mem_take_commonIndent (hl : l ∈ ls) (hblank : Text.allBlank l = false) :
    ∀ d ∈ l.take (commonIndent ls), Text.isBlank d = true := by
  intro d hd
  refine Text.isBlank_of_mem_take ?_ hd
  unfold commonIndent
  cases hmin : ((ls.filter fun l => !Text.allBlank l).map fun l =>
      l.length - (Text.trimStart l).length).min? with
  | none => exact Nat.zero_le _
  | some n =>
    refine (List.min?_eq_some_iff.1 hmin).2 _ (List.mem_map.2 ⟨l, List.mem_filter.2 ⟨hl, ?_⟩, rfl⟩)
    simp [hblank]

theorem isBlank_brace : Text.isBlank '\x7b' = false := by
  decide

/-- An interpolation in a line stands in the value of a heredoc. -/
theorem interpolates_heredocValue (flush : Bool) (hl : l ∈ ls) (h : Interpolates l) :
    Interpolates (heredocValue flush ls) := by
  have hblank : Text.allBlank l = false := by
    rw [Text.allBlank, List.all_eq_false]
    exact ⟨_, h.mem_brace, by simp [isBlank_brace]⟩
  have hvalue : heredocValue flush ls =
      Text.closedChars (ls.map (List.drop (if flush then commonIndent ls else 0))) := by
    rw [heredocValue, Text.closedChars, List.flatMap_map]
  rw [hvalue, interpolates_closedChars]
  refine ⟨_, List.mem_map_of_mem hl, h.drop_blanks ?_⟩
  cases flush with
  | false => simp
  | true => exact isBlank_of_mem_take_commonIndent hl hblank

/-- What opens a template in a heredoc stands in its value as it is. -/
theorem interpolates_of_heredoc {o : HeredocOpening} {b : List Char × Nat}
    (ho : heredocOpening? cs = some o) (h : heredoc line cs o = .ok b)
    (hheld : Interpolates (cs.take b.2)) : Interpolates b.1 := by
  obtain ⟨ls, last, htake, hlast, hvalue⟩ := heredoc_eq ho h
  obtain ⟨hopening, hmarker⟩ := brace_not_mem_opening ho
  have hclosing : '\x7b' ∉ last := fun hmem => hmarker (hlast ▸ Text.mem_trimChars hmem isBlank_brace)
  rw [htake, Interpolates, interpolatesAfter_append_newline] at hheld
  obtain ⟨l, hl, hin⟩ := interpolates_closedChars.1
    ((hheld.resolve_left fun hin => hopening hin.mem_brace).of_append hclosing)
  obtain ⟨ds, hsplit, hreturns⟩ := Text.exists_dropEndWhile (· == '\r') l
  rw [hsplit] at hin
  have hline : Interpolates (Text.dropEndWhile (· == '\r') l) :=
    hin.of_append fun hmem => absurd (hreturns _ hmem) (by decide)
  rw [hvalue]
  exact interpolates_heredocValue o.flush (List.mem_map_of_mem hl) hline

/-! ## Tokens -/

/-- A number ends before a brace. -/
theorem brace_not_mem_number (cs : List Char) : '\x7b' ∉ cs.take (numberAt cs).2 := by
  intro hmem
  obtain ⟨u, v, hsplit⟩ := List.append_of_mem hmem
  have hcs : cs = u ++ '\x7b' :: (v ++ cs.drop (numberAt cs).2) := by
    rw [← List.cons_append, ← List.append_assoc, ← hsplit, List.take_append_drop]
  have hlength := congrArg List.length hsplit
  rw [List.length_take_of_le (numberAt_length cs), hcs, numberAt_barrier barrier_openBrace,
    List.length_append, List.length_cons] at hlength
  have := numberAt_length u
  omega

/-- A token that holds an interpolation is a string with a template, a comment, or a heredoc that
says what it is written with. -/
theorem kind_of_interpolates {k : Token.Kind}
    (h : lexeme line c (cs ++ ds) = .ok (k, cs.length)) (hheld : Interpolates (c :: cs)) :
    k = .comment ∨ (∃ s, k = .string s true) ∨ ∃ s, k = .heredoc s ∧ Interpolates s.toList := by
  have htake : (cs ++ ds).take cs.length = cs := List.take_left
  generalize hrest : cs ++ ds = rest at h htake
  generalize hn : cs.length = n at h htake
  cases begins_of_lexeme h with
  | newline | equals | mark =>
    rw [List.take_zero] at htake
    subst htake
    exact absurd hheld not_interpolates_singleton
  | lineComment | blockComment => exact .inl rfl
  | @quoted q head read =>
    subst head
    have htemplate : q.template = true := by
      by_contra hplain
      have hbody : ¬ InterpolatesAfter (some '"') (rest.take (q.length - 0)) :=
        not_interpolates_of_quotedFrom read (by simpa using hplain) (.inl (by simp))
      rw [Nat.sub_zero, htake] at hbody
      exact (interpolatesAfter_cons.1 hheld).elim (fun hc => absurd hc.1 (by simp [IsMark])) hbody
    exact .inr (.inl ⟨String.ofList q.value, by rw [htemplate]⟩)
  | @heredoc o b opening read =>
    refine .inr (.inr ⟨_, rfl, ?_⟩)
    have hlength := (heredoc_length read).1
    have htext : (c :: rest).take b.2 = c :: cs := by
      rw [show b.2 = b.2 - 1 + 1 by omega, List.take_succ_cons, htake]
    rw [String.toList_ofList]
    exact interpolates_of_heredoc opening read (htext ▸ hheld)
  | number head =>
    exfalso
    rcases Nat.eq_zero_or_pos (numberAt (c :: rest)).2 with hzero | hpos
    · rw [hzero, List.take_zero] at htake
      subst htake
      exact not_interpolates_singleton hheld
    · have hbrace := brace_not_mem_number (c :: rest)
      rw [← Nat.sub_add_cancel hpos, List.take_succ_cons, htake] at hbrace
      exact hbrace hheld.mem_brace
  | name head =>
    rw [← List.prefix_iff_eq_take.1 (List.takeWhile_prefix _)] at htake
    rcases List.mem_cons.1 hheld.mem_brace with rfl | hmem
    · exact absurd head (by decide)
    · rw [← htake] at hmem
      exact absurd (List.mem_takeWhile_imp hmem) (by decide)
  | comparison head mark =>
    rw [htake] at mark
    subst head
    have hbrace := hheld.mem_brace
    rcases mark with rfl | rfl
    · exact absurd hbrace (by decide)
    · exact absurd hbrace (by decide)

theorem Lexed.kind_of_token {ps : List Piece} (h : Lexed [] ps) {place first : Nat} {t : Token}
    (ht : t ∈ placed place first ps) (hheld : Interpolates t.text.toList) : t.kind = .comment ∨
      (∃ s, t.kind = .string s true) ∨ ∃ s, t.kind = .heredoc s ∧ Interpolates s.toList := by
  induction h generalizing place first with
  | nil => cases ht
  | gap _ _ ih => exact ih ht
  | token _ read _ ih =>
    rcases List.mem_cons.1 ht with rfl | ht
    · rw [String.toList_ofList] at hheld
      exact kind_of_interpolates (read 0) hheld
    · exact ih ht

/-! ## Texts that are read as literals -/

/-- A text that is read as a value, as an entry or as a record. -/
inductive IsTaken (text : String) : Prop
  | value {v : Value} (read : parseValue text = .ok v)
  | entry {e : String × Value} (read : parseEntry text = .ok e)
  | record {r : String × InstanceRecord} (read : Record.parse text = .ok (.ok r))

theorem exists_parseEntry {text : String} {r : String × InstanceRecord}
    (h : Record.parse text = .ok (.ok r)) : ∃ e, parseEntry text = .ok e := by
  unfold Record.parse at h
  cases hentry : parseEntry text with
  | ok e => exact ⟨e, rfl⟩
  | error f =>
    rw [hentry] at h
    cases f <;> cases h

/-- The tokens of a text that is taken, comments aside, are those of a literal. -/
theorem IsTaken.literals {text : String} (h : IsTaken text) :
    ∃ ts, significantTokens text = .ok ts ∧ Literals ts := by
  have hentry : ∀ {e : String × Value}, parseEntry text = .ok e →
      ∃ ts, significantTokens text = .ok ts ∧ Literals ts := by
    intro e he
    obtain ⟨ns, ts, cs, ms, htokens, hns, hts, hcs, hms⟩ := exists_of_parseEntry he
    have hcomma : Literals cs := by
      rcases hcs with rfl | ⟨c, rfl, hkind⟩
      · exact nofun
      · exact .single ⟨by simp [hkind], by simp [hkind]⟩
    exact ⟨_, htokens, hns.literals.append (hts.literals.append (hcomma.append hms.literals))⟩
  cases h with
  | value read =>
    obtain ⟨ns, ts, ms, htokens, hns, hts, hms⟩ := exists_of_parseValue read
    exact ⟨_, htokens, hns.literals.append (hts.literals.append hms.literals)⟩
  | entry read => exact hentry read
  | record read =>
    obtain ⟨e, he⟩ := exists_parseEntry read
    exact hentry he

/-- In a text that is taken as a literal no quoted string holds an interpolation. An interpolation
outside comments stands in a heredoc, and is read as a part of its text. -/
theorem interpolations_stand_in_heredocs {text : String} (h : IsTaken text) :
    ∃ ts, tokenize text = .ok ts ∧
      (∀ t ∈ ts, ∀ s template, t.kind = .string s template → ¬ Interpolates t.text.toList) ∧
      ∀ t ∈ ts, Interpolates t.text.toList →
        t.kind = .comment ∨ ∃ s, t.kind = .heredoc s ∧ Interpolates s.toList := by
  obtain ⟨us, htokens, hliterals⟩ := h.literals
  unfold significantTokens at htokens
  cases hts : tokenize text with
  | error f =>
    rw [hts] at htokens
    cases htokens
  | ok ts =>
    rw [hts] at htokens
    obtain rfl := Except.ok.inj htokens
    obtain ⟨ps, -, hlexed, hplaced⟩ := exists_pieces hts
    have htemplate : ∀ t ∈ ts, ∀ s, t.kind ≠ .string s true := by
      intro t ht s hkind
      have hmem : t ∈ ts.filter fun t => !t.isComment :=
        List.mem_filter.2 ⟨ht, by simp [Token.isComment, hkind]⟩
      exact (hliterals t hmem).2 s hkind
    refine ⟨ts, rfl, fun t ht s template hkind hheld => ?_, fun t ht hheld => ?_⟩
    · rcases hlexed.kind_of_token (hplaced ▸ ht) hheld with hc | ⟨s', hs⟩ | ⟨s', hs, -⟩
      · rw [hkind] at hc
        cases hc
      · exact htemplate t ht s' hs
      · rw [hkind] at hs
        cases hs
    · rcases hlexed.kind_of_token (hplaced ▸ ht) hheld with hc | ⟨s, hs⟩ | hs
      · exact .inl hc
      · exact absurd hs (htemplate t ht s)
      · exact .inr hs

/-- A heredoc whose only line is a reference to a variable. -/
def referringHeredoc : String :=
  "<<EOT\n$\x7bvar.name\x7d\nEOT\n"

/-- The reference is read as text; in quotes it is refused. -/
theorem reference_read_as_text :
    (∃ v, parseValue referringHeredoc = .ok (.text v) ∧ Interpolates v.toList) ∧
      parseValue "\"$\x7bvar.name\x7d\"" =
        .error (.atLine (.templateInValue "\"$\x7bvar.name\x7d\"") 0) ∧
      ∃ ts, tokenize referringHeredoc = .ok ts ∧
        (∀ t ∈ ts, ∀ s template, t.kind = .string s template → ¬ Interpolates t.text.toList) ∧
        ∀ t ∈ ts, Interpolates t.text.toList →
          t.kind = .comment ∨ ∃ s, t.kind = .heredoc s ∧ Interpolates s.toList := by
  have htokens : significantTokens referringHeredoc =
      .ok [⟨.heredoc "$\x7bvar.name\x7d\n", "<<EOT\n$\x7bvar.name\x7d\nEOT", 0, 21, 0⟩,
        ⟨.newline, "\n", 21, 22, 2⟩] := by decide +kernel
  have hquoted : significantTokens "\"$\x7bvar.name\x7d\"" =
      .ok [⟨.string "$\x7bvar.name\x7d" true, "\"$\x7bvar.name\x7d\"", 0, 13, 0⟩] := by decide +kernel
  have hread : parseValue referringHeredoc = .ok (.text "$\x7bvar.name\x7d\n") := by
    rw [parseValue, htokens]
    cbv
  have hrefused : parseValue "\"$\x7bvar.name\x7d\"" =
      .error (.atLine (.templateInValue "\"$\x7bvar.name\x7d\"") 0) := by
    rw [parseValue, hquoted]
    cbv
  refine ⟨⟨_, hread, .here (.inl rfl) (Option.some_ne_none _).symm⟩, hrefused, ?_⟩
  exact interpolations_stand_in_heredocs (.value hread)

end InstanceInventory.Literal

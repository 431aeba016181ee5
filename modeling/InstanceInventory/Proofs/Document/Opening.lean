import InstanceInventory.Document.LinePattern
import InstanceInventory.Proofs.Document.Written
import InstanceInventory.Proofs.Record.Key

/-! # Blocks that open on the line of their key

* `opensRecord_written`: the first line of the block of a record, as it is written.
* `Block.Headed`: a block that opens on the line of its key, and on a line that looks like it.
* `Block.Settled.headed`: the block of a record is such a block.
-/

namespace InstanceInventory
set_option autoImplicit false
open Literal

/-! ## Resource keys -/

namespace Literal
open Record (isKeyChar ne_of_isKeyChar isKeyChar_bound)

/-- Between quotes a resource key stands as it is. -/
theorem stringBody_key {cs : List Char} (h : ∀ c ∈ cs, isKeyChar c = true) : stringBody cs = cs := by
  induction cs with
  | nil => rfl
  | cons c cs ih =>
    have hc := h c (List.mem_cons_self ..)
    have hne : ∀ d, isKeyChar d = false → c ≠ d := fun d => ne_of_isKeyChar hc
    have hvisible : ¬ c.toNat < 0x20 := Nat.not_lt.2 (isKeyChar_bound hc)
    rw [stringBody, ih fun d hd => h d (List.mem_cons_of_mem c hd), stringChar]
    simp [hne '\\' rfl, hne '"' rfl, hne '\n' rfl, hne '\t' rfl, hne '\r' rfl, hne '$' rfl,
      hne '%' rfl, hvisible]

/-- A resource key stands bare, or between quotes. -/
theorem keyChars_cases {key : String} (h : ∀ c ∈ key.toList, isKeyChar c = true) :
    keyChars key = key.toList ∨ keyChars key = '"' :: (key.toList ++ ['"']) := by
  unfold keyChars
  split
  · exact .inl rfl
  · exact .inr (by rw [stringChars, stringBody_key h])

end Literal

namespace Document

/-! ## Lines that open a block -/

theorem opensBlockChars_spaces {name cs : List Char} (h : opensBlockChars name cs = true) (n : Nat) :
    opensBlockChars name (List.replicate n ' ' ++ cs) = true := by
  have hspace : Text.isBlank ' ' = true := by decide
  induction n with
  | zero => exact h
  | succ n ih => rw [List.replicate_succ, List.cons_append, opensBlockChars, hspace, ih, Bool.and_true,
      Bool.or_true]

/-- What stands between a key and its block, with the brace that opens the block. -/
def signChars : List Char := [' ', '=', ' ', '\x7b']

theorem opensBlockChars_named (name after : List Char) :
    opensBlockChars name (name ++ (signChars ++ after)) = true := by
  have hassigns : assignsBlock (signChars ++ after) = true := by
    have hspace : Text.isBlank ' ' = true := by decide
    have hequals : Text.isBlank '=' = false := by decide
    have hbrace : Text.isBlank '\x7b' = false := by decide
    simp [assignsBlock, signChars, Text.trimStart, hspace, hequals, hbrace]
  have hnames : namesBlock name (name ++ (signChars ++ after)) = true := by
    rw [namesBlock, List.drop_left, hassigns, Bool.and_true, List.isPrefixOf_iff_prefix]
    exact List.prefix_append _ _
  obtain ⟨c, cs, hcs⟩ : ∃ c cs, name ++ (signChars ++ after) = c :: cs :=
    List.exists_cons_of_ne_nil (by simp [signChars])
  rw [hcs] at hnames ⊢
  rw [opensBlockChars, hnames, Bool.true_or]

/-- The line that opens the block of a resource key, as it is written. -/
theorem opensRecord_written {key : String} (h : ∀ c ∈ key.toList, Record.isKeyChar c = true)
    (level : Int) (after : List Char) :
    opensRecord key (String.ofList (indent level ++ keyChars key ++ signChars ++ after)) = true := by
  rw [opensRecord, String.toList_ofList, indent, List.append_assoc, List.append_assoc]
  rcases keyChars_cases h with hkey | hkey
  · rw [hkey, opensBlockChars_spaces (opensBlockChars_named _ after), Bool.true_or]
  · rw [hkey, opensBlockChars_spaces (opensBlockChars_named _ after), Bool.or_true]

/-! ## Blocks -/

/-- The pieces of a core up to the brace that opens its block. -/
def Core.headPieces (c : Core) : List Piece :=
  .token c.kind c.head c.tail ::
    (c.signGap.map .gap ++ .token .equals '=' [] :: c.openGap.map .gap)

theorem Core.openPieces_eq (c : Core) :
    c.openPieces = c.headPieces ++ .token .openBrace '\x7b' [] :: c.inside := by
  simp [Core.openPieces, Core.headPieces]

/-- The pieces of a block up to the brace that opens it. -/
def Block.headPieces (b : Block) : List Piece :=
  b.lead ++ b.core.headPieces

/-- A block that opens on the line of its key, whatever follows the brace on that line. -/
structure Block.Headed (b : Block) : Prop where
  single : '\n' ∉ charsOf b.headPieces
  flat : .openBrace ∉ kindsOf b.headPieces
  opens : ∀ after, opensRecord b.key
    (String.ofList (charsOf b.headPieces ++ '\x7b' :: after)) = true

/-- Pieces without an opening brace, up to the first one, are determined. -/
theorem eq_of_append_openBrace {ps qs rest rest' : List Piece} {c d : Char} {cs ds : List Char}
    (hp : .openBrace ∉ kindsOf ps) (hq : .openBrace ∉ kindsOf qs)
    (h : ps ++ .token .openBrace c cs :: rest = qs ++ .token .openBrace d ds :: rest') :
    ps = qs := by
  induction ps generalizing qs with
  | nil =>
    cases qs with
    | nil => rfl
    | cons q qs =>
      obtain ⟨rfl, -⟩ := List.cons.inj h
      exact absurd (List.mem_cons_self ..) hq
  | cons p ps ih =>
    cases qs with
    | nil =>
      obtain ⟨rfl, -⟩ := List.cons.inj h
      exact absurd (List.mem_cons_self ..) hp
    | cons q qs =>
      obtain ⟨rfl, htail⟩ := List.cons.inj h
      have hmem : ∀ ps, .openBrace ∉ kindsOf (p :: ps) → .openBrace ∉ kindsOf ps := by
        intro ps hps hmem
        cases p with
        | gap c => exact hps hmem
        | token k c cs => exact hps (List.mem_cons_of_mem k hmem)
      rw [ih (hmem ps hp) (hmem qs hq) htail]

/-- Pieces that begin with an opening brace begin with its token. -/
theorem exists_openBrace {after cs : List Char} {ps : List Piece} (h : Lexed after ps)
    (hbrace : charsOf ps = '\x7b' :: cs) :
    ∃ ds rest, ps = .token .openBrace '\x7b' ds :: rest := by
  cases h with
  | nil => cases hbrace
  | gap blank _ =>
    obtain ⟨rfl, -⟩ := List.cons.inj hbrace
    cases blank
  | token _ read _ =>
    obtain ⟨rfl, -⟩ := List.cons.inj hbrace
    have hread := (read 0).symm.trans (lexeme_mark rfl 0 _)
    obtain ⟨rfl, -⟩ := Prod.mk.inj (Except.ok.inj hread)
    exact ⟨_, _, rfl⟩

theorem Block.Valid.flat {b : Block} (h : b.Valid) : .openBrace ∉ kindsOf b.headPieces := by
  have hspacers : ∀ {ps : List Piece}, (∀ p ∈ ps, Spacer p) → .openBrace ∉ kindsOf ps := by
    intro ps hps hmem
    rw [← map_kind_tokensAfter []] at hmem
    obtain ⟨t, ht, hkind⟩ := List.mem_map.1 hmem
    have hspacing := isSpacing_of_spacers hps [] t ht
    rcases isSpacing_kind hspacing with h | h
    · rw [hkind] at h
      cases h
    · rw [hkind] at h
      cases h
  have hlead := hspacers fun p hp => h.leads.spacers p (List.mem_append_right _ hp)
  have hkey : b.core.kind ≠ .openBrace := by
    intro hkind
    have hname : keyOf? (tokenAfter [] b.core.kind b.core.head b.core.tail) = some b.key := h.core.key
    simp [keyOf?, tokenAfter, hkind] at hname
  rw [Block.headPieces, kindsOf_append, List.mem_append, not_or, Core.headPieces, kindsOf,
    kindsOf_append, kindsOf_gaps, kindsOf, kindsOf_gaps]
  exact ⟨hlead, by simp [hkey.symm]⟩

theorem Block.Settled.charsOf_headPieces {b : Block} (h : b.Settled) {level : Int} {fs : Fields}
    (htext : b.text = renderEntry level b.key (.object fs)) :
    charsOf b.headPieces = indent level ++ keyChars b.key ++ [' ', '=', ' '] := by
  obtain ⟨cs, hcs⟩ : ∃ cs, valueChars level (.object fs) = '\x7b' :: cs := by
    unfold valueChars
    split
    · exact ⟨_, rfl⟩
    · exact ⟨_, rfl⟩
  have hkept : charsOf b.kept = indent level ++ keyChars b.key ++ [' ', '=', ' '] ++ '\x7b' :: cs := by
    have h := congrArg String.toList htext
    rwa [Block.text, renderEntry, String.toList_ofList, String.toList_ofList, hcs] at h
  -- What stands before the brace can be read by itself, and only in one way.
  have hreads : Writes (indent level ++ keyChars b.key ++ [' ', '=', ' '])
      ('\x7b' :: cs ++ ['\n']) fun ts => .openBrace ∉ ts.map Token.kind := by
    have hsign : Writes [' ', '=', ' '] ('\x7b' :: cs ++ ['\n'])
        fun ts => .openBrace ∉ ts.map Token.kind := by
      refine .gap rfl (.token '=' [] rfl (fun line => lexeme_equals line _)
        (fun _ hkind _ => .of_kind hkind (by simp)) (.gap rfl (.nil (P := (· = [])) rfl)) ?_)
      rintro t us hkind - rfl
      simp [hkind]
    rw [List.append_assoc]
    refine .spaces _ (.key b.key (Delimited.cons rfl _) hsign fun t us hkey hus => ?_)
    have hflat := hkey.isFlat
    rw [List.map_cons, List.mem_cons, not_or]
    refine ⟨?_, hus⟩
    intro hkind
    rw [← hkind] at hflat
    exact absurd hflat.1 (by decide)
  obtain ⟨hs, hchars, hlexed, hflat⟩ := hreads.reads
  obtain ⟨rest, hrest, hbrace⟩ := hlexed.exists_prefix (h.lexed []) (hchars ▸ hkept)
  have hlexed' : Lexed ['\n'] rest := (hrest ▸ h.lexed []).right
  obtain ⟨ds, ps, rfl⟩ := exists_openBrace hlexed' hbrace
  rw [Block.kept, Core.pieces, Core.openPieces_eq] at hrest
  have hsplit : b.headPieces ++ .token .openBrace '\x7b' [] :: (b.core.inside ++
      .token .closeBrace '\x7d' [] :: b.core.commaPieces ++ b.tail) =
      hs ++ .token .openBrace '\x7b' ds :: ps := by
    rw [← hrest, Block.headPieces]
    simp
  have hflat : .openBrace ∉ kindsOf hs := by
    rw [← map_kind_tokensAfter []]
    exact hflat _ _
  rw [eq_of_append_openBrace h.valid.flat hflat hsplit, hchars]

/-- The block of a record opens on the line of its key. -/
theorem Block.Settled.headed {b : Block} (h : b.Settled) {r : InstanceRecord} {level : Int}
    (hkey : b.key = r.key) (htext : b.text = r.block level) : b.Headed := by
  have hchars : ∀ c ∈ b.key.toList, Record.isKeyChar c = true := by
    rw [hkey]
    exact Record.isKeyChar_of_mem r.name
  have hwritten : b.text = renderEntry level b.key (.object r.draft.attributes) := by
    rw [htext, hkey]
    rfl
  have hhead := h.charsOf_headPieces hwritten
  refine ⟨?_, h.valid.flat, fun after => ?_⟩
  · have hindent : '\n' ∉ indent level := fun hmem =>
      absurd (List.eq_of_mem_replicate hmem) (by decide)
    have hnewline : '\n' ∉ b.key.toList := fun hmem => by
      have := hchars _ hmem
      cases this
    rw [hhead]
    rcases keyChars_cases hchars with hkey | hkey
    · simp [hkey, hindent, hnewline]
    · simp [hkey, hindent, hnewline]
  · have e : charsOf b.headPieces ++ '\x7b' :: after =
        indent level ++ keyChars b.key ++ signChars ++ after := by
      rw [hhead]
      simp [signChars]
    rw [e]
    exact opensRecord_written hchars level after

end Document
end InstanceInventory
